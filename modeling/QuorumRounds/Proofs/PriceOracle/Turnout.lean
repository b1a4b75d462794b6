import QuorumRounds.Proofs.Ballot.Agreement
import QuorumRounds.Proofs.Ballot.Reach
import QuorumRounds.Proofs.PriceOracle.Periods

/-! # Which rounds are given up

Registration waits for everybody, so it is never given up. The other rounds are, once too few of their
participants are left to reach the threshold.

* With at least as many participants as the threshold, an observation from each of them is enough, and
  votes for a reset are all for the same period, so only the estimates can be split too far
  (`ne_noMajority_of_enough`).
* With fewer participants the rounds that wait for a threshold are given up at once
  (`endBlock_of_few`), so that no round but a registration ever has a result (`Barren`). -/

namespace QuorumRounds.PriceOracle
set_option autoImplicit false

open Replica (Recounts)

/-! ## One round -/

namespace Round.Took
variable {depth required : UInt64} {poll : Poll Kind} {taken : List (Transaction Payload)}
  {kind : RoundKind} {round after : Round} {threshold : Nat}

theorem endBlock_of_few (h : round.Took depth poll required taken kind)
    (hkind : kind = .collectObservation ∨ kind = .reset) (ht : poll.threshold = .ok threshold)
    (hfew : poll.participants.size < threshold) :
    round.endBlock = .ok (some (poll.store, .noMajority), round) := by
  cases h with
  | registration => simp at hkind
  | estimateConsensus => simp at hkind
  | @collectObservation gathering h =>
    have hneeded : gathering.required = .ok threshold := by
      rw [Gathering.required, h.quota_eq]
      show gathering.poll.threshold = _
      rw [h.poll_eq, ht]
    have himpossible : gathering.isPossibleAt threshold = false := by
      rw [← Bool.not_eq_true, h.isPossibleAt_iff]
      omega
    simp only [Round.endBlock, Gathering.decide_of_impossible hneeded himpossible, Checked.ok_bind,
      handOn, store, Round.poll, h.poll_eq]
    rfl
  | @reset ballot h =>
    have hthreshold : ballot.poll.threshold = .ok threshold := by rw [h.poll_eq, ht]
    have himpossible : ballot.isPossibleAt threshold = false := by
      have hbest := Ballot.potential_le h.took
      rw [← Bool.not_eq_true, h.isPossibleAt_iff]
      omega
    simp only [Round.endBlock, Ballot.decide_of_impossible hthreshold himpossible, Checked.ok_bind,
      handOn, store, Round.poll, h.poll_eq]
    rfl

theorem ne_noMajority_of_enough {result : Store} {event : Event}
    (h : round.Took depth poll required taken kind) (hkind : kind ≠ .estimateConsensus)
    (ht : poll.threshold = .ok threshold) (henough : threshold ≤ poll.participants.size)
    (hsame : kind = .reset → ∀ tx ∈ taken, ∀ other ∈ taken, tx.payload.same other.payload = true)
    (hend : round.endBlock = .ok (some (result, event), after)) : event ≠ .noMajority := by
  rintro rfl
  cases h with
  | estimateConsensus => exact absurd rfl hkind
  | @registration gathering h =>
    obtain ⟨decision, asked, hdecide, hmade, _⟩ := handedOn_eq_ok .registration hend
    obtain rfl := (handOn_eq_noMajority_iff hmade).1 rfl
    have hneeded : gathering.required = .ok poll.participants.size := by
      rw [Gathering.required, h.quota_eq, h.poll_eq]
    exact h.decide_ne_noMajority hneeded (Nat.le_refl _) hdecide
  | @collectObservation gathering h =>
    obtain ⟨decision, asked, hdecide, hmade, _⟩ := handedOn_eq_ok .collectObservation hend
    obtain rfl := (handOn_eq_noMajority_iff hmade).1 rfl
    have hneeded : gathering.required = .ok threshold := by
      rw [Gathering.required, h.quota_eq]
      show gathering.poll.threshold = _
      rw [h.poll_eq, ht]
    exact h.decide_ne_noMajority hneeded henough hdecide
  | @reset ballot h =>
    obtain ⟨decision, asked, hdecide, hmade, _⟩ :=
      handedOn_eq_ok (.reset · crossPeriodKeys depth) hend
    obtain rfl := (handOn_eq_noMajority_iff hmade).1 rfl
    rw [← h.poll_eq] at ht
    have himpossible := Ballot.isPossibleAt_of_decide ht hdecide
    rw [← Bool.not_eq_true, h.isPossibleAt_iff,
      Ballot.potential_of_same h.took (hsame rfl)] at himpossible
    exact himpossible henough

end Round.Took

/-- All the votes that a reset has taken are equal. -/
theorem NamesNext.same {current : RoundKind × Poll Kind} {taken : List (Transaction Payload)}
    (h : NamesNext current taken) (hkind : current.1 = .reset) :
    ∀ tx ∈ taken, ∀ other ∈ taken, tx.payload.same other.payload = true := by
  intro tx htx other hother
  obtain ⟨period, hperiod, hnext⟩ := h hkind tx htx
  obtain ⟨otherPeriod, hother, hnext'⟩ := h hkind other hother
  obtain rfl : period = otherPeriod := UInt64.toNat_inj.1 (hnext.trans hnext'.symm)
  rw [hperiod, hother]
  exact beq_self_eq_true period

/-! ## Enough participants -/

variable {settings : Settings} {config : Config RoundKind} {participants : SortedSet String}
  {start replica : OracleReplica} {endings : List OracleEnding} {threshold : Nat}

/-- Only a vote on the estimate is ever given up, whatever is asked and whatever has ended. -/
structure SplitsOnlyOnEstimates (replica : OracleReplica) (endings : List OracleEnding) : Prop where
  ended : ∀ e ∈ endings, e.event = .noMajority → e.kind = .estimateConsensus
  asked : ∀ kind round result event after, replica.machine.current = some (kind, round) →
    round.endBlock = .ok (some (result, event), after) → event = .noMajority →
      kind = .estimateConsensus

section Round
variable {current : RoundKind × Poll Kind} {taken : List (Transaction Payload)}
  {machine after : OracleMachine}

/-- The threshold of the poll is that of the configuration. -/
theorem Running.threshold_eq (h : Running settings config current taken machine)
    (ht : config.params.threshold = .ok threshold) : current.2.threshold = .ok threshold := by
  rw [Poll.threshold, h.params_eq, ht]

theorem Voting.kind_of_noMajority (h : Voting settings config participants current taken machine)
    (ht : config.params.threshold = .ok threshold) (henough : threshold ≤ participants.size)
    {kind : RoundKind} {round asked : Round} {result : Store}
    (hcurrent : machine.current = some (kind, round))
    (hend : round.endBlock = .ok (some (result, .noMajority), asked)) :
    kind = .estimateConsensus := by
  obtain ⟨⟨hrunning, rfl⟩, hnames⟩ := h
  obtain ⟨round', hcurrent', htook⟩ := hrunning.round
  cases hcurrent'.symm.trans hcurrent
  by_contra hkind
  exact htook.ne_noMajority_of_enough hkind (hrunning.threshold_eq ht) henough hnames.same hend rfl

theorem ne_noMajority_of_mem_timeoutEvents {kind : RoundKind} {event : Event}
    (h : event ∈ settings.application.timeoutEvents kind) : event ≠ .noMajority := by
  rintro rfl
  have htimed := (Application.mem_timeoutEvents.1 h).2
  have huntimed : settings.application.timeouts.contains .noMajority = false := rfl
  rw [huntimed] at htimed
  cases htimed

end Round

theorem splitsOnlyOnEstimates (hsetUp : SetUp settings participants config start)
    (ht : config.params.threshold = .ok threshold) (henough : threshold ≤ participants.size)
    (h : Recounts start replica endings) : SplitsOnlyOnEstimates replica endings := by
  have htracks := voting_tracks settings config participants
  obtain ⟨_, _, current, hrunning, hasked⟩ := hsetUp.running
  have hstart : Replica.Held (Voting settings config participants) start :=
    ⟨current, [], Voting.entered ⟨hrunning, hasked⟩⟩
  refine ⟨?_, ?_⟩
  · refine h.forall_mem htracks hstart ?_ ?_
    · intro current taken machine now answer after hvoting htime e he hevent
      rcases hvoting.1.1.updateTime_cases htime with ⟨rfl, _⟩ | ⟨event, _, rfl, htimeout, _⟩
      · rw [Ending.ofAnswer_none] at he
        cases he
      · obtain ⟨round, hcurrent, _⟩ := hvoting.1.1.round
        rw [Machine.currentKind_of_current hcurrent] at he
        obtain rfl := List.mem_singleton.1 he
        exact absurd hevent (ne_noMajority_of_mem_timeoutEvents htimeout)
    · intro current taken machine answer after hvoting hend e he hevent
      obtain ⟨round, asked, outcome, hcurrent, hround, hcases⟩ := hvoting.1.1.endBlock_cases hend
      rw [Machine.currentKind_of_current hcurrent] at he
      rcases hcases with ⟨_, rfl, _⟩ | ⟨event, next, rfl, rfl, _⟩
      · cases he
      · obtain rfl := List.mem_singleton.1 he
        obtain rfl : event = .noMajority := hevent
        exact hvoting.kind_of_noMajority ht henough hcurrent hround
  · rintro kind round result event after hcurrent hend rfl
    obtain ⟨_, _, hvoting⟩ := h.held htracks hstart
    exact hvoting.kind_of_noMajority ht henough hcurrent hend

/-! ## Too few participants -/

/-- Nothing but participants has been stored. -/
structure Blank (store : Store) : Prop where
  period_eq : store.period = 0
  observations_eq : store.history? observationsKey = none
  estimate_eq : store.history? estimateKey = none

theorem Blank.update {store : Store} (h : Blank store) (value : Value) :
    Blank (store.update [(participantsKey, value)]) where
  period_eq := h.period_eq
  observations_eq := by
    rw [Store.history?_update, if_neg (by decide)]
    exact h.observations_eq
  estimate_eq := by
    rw [Store.history?_update, if_neg (by decide)]
    exact h.estimate_eq

theorem blank_ofSetup (participants : SortedSet String) :
    Blank (Store.ofSetup (Settings.setupData participants.toList)) := by
  have hnone : ∀ key, key ≠ participantsKey →
      (Store.ofSetup (Settings.setupData participants.toList)).history? key = none := by
    intro key hkey
    rw [Store.history?_ofSetup, Settings.setupData, SortedMap.get?_insert, if_neg hkey]
    rfl
  exact ⟨rfl, hnone _ (by decide), hnone _ (by decide)⟩

structure Barren (settings : Settings) (config : Config RoundKind) (participants : SortedSet String)
    (current : RoundKind × Poll Kind) (taken : List (Transaction Payload))
    (machine : OracleMachine) : Prop where
  serving : Serving settings config participants current taken machine
  kind_ne : current.1 ≠ .estimateConsensus
  blank : Blank current.2.store

/-- The estimates are asked for only after the observations have been collected. -/
theorem eq_done_of_next_estimate {kind : RoundKind} {event : Event}
    (h : transitions.next? kind event = some .estimateConsensus) :
    kind = .collectObservation ∧ event = .done := by
  cases kind <;> cases event
  case collectObservation.done => exact ⟨rfl, rfl⟩
  all_goals exact absurd h (by decide)

namespace Barren
variable {current : RoundKind × Poll Kind} {taken : List (Transaction Payload)}
  {machine after : OracleMachine}

/-- The next round begins with a store that names the same participants. -/
theorem entered {next : RoundKind × Poll Kind} {event : Event}
    (hevent : event = .done → current.1 = .registration)
    (hnext : transitions.next? current.1 event = some next.1) (hblank : Blank next.2.store)
    (hparticipants : next.2.store.participants = .ok participants)
    (hnew : Running settings config next [] after) :
    Barren settings config participants next [] after := by
  refine ⟨serving_of_participants hnew hparticipants, fun hestimate => ?_, hblank⟩
  rw [hestimate] at hnext
  obtain ⟨hcollect, hdone⟩ := eq_done_of_next_estimate hnext
  rw [hcollect] at hevent
  cases hevent hdone

theorem updateTime {now : Duration} {answer : Except Error (Option Event)}
    (h : Barren settings config participants current taken machine)
    (htime : machine.updateTime now = .ok (answer, after)) :
    answer = .ok none ∧ Barren settings config participants current taken after ∨
      ∃ event next, answer = .ok (some event) ∧ event ≠ .done ∧
        Barren settings config participants next [] after := by
  obtain ⟨hrunning, hasked⟩ := h.serving
  rcases hrunning.updateTime_cases htime with ⟨hanswer, hsame⟩ | ⟨event, next, hanswer, htimeout,
    hnext, hstore, hnew⟩
  · exact .inl ⟨hanswer, ⟨hsame, hasked⟩, h.kind_ne, h.blank⟩
  · have hdone := ne_done_of_mem_timeoutEvents htimeout
    refine .inr ⟨event, next, hanswer, hdone, entered (fun hf => absurd hf hdone) hnext ?_ ?_ hnew⟩
    · rw [hstore]
      exact h.blank
    · rw [hstore, hrunning.participants_eq, hasked]

theorem gives_up {kind : RoundKind} {round : Round}
    (h : Barren settings config participants current taken machine)
    (ht : config.params.threshold = .ok threshold) (hfew : participants.size < threshold)
    (hcurrent : machine.current = some (kind, round))
    (hkind : kind = .collectObservation ∨ kind = .reset) :
    round.endBlock = .ok (some (machine.store, .noMajority), round) := by
  obtain ⟨hrunning, rfl⟩ := h.serving
  obtain ⟨round', hcurrent', htook⟩ := hrunning.round
  cases hcurrent'.symm.trans hcurrent
  rw [hrunning.store_eq]
  exact htook.endBlock_of_few hkind (hrunning.threshold_eq ht) hfew

theorem endBlock {answer : Except Error (Option Event)}
    (h : Barren settings config participants current taken machine)
    (ht : config.params.threshold = .ok threshold) (hfew : participants.size < threshold)
    (hend : machine.endBlock = .ok (answer, after)) :
    (current.1 = .registration ∨ answer = .ok (some .noMajority)) ∧
      (answer = .ok none ∧ Barren settings config participants current taken after ∨
        ∃ event next, answer = .ok (some event) ∧
          Barren settings config participants next [] after) := by
  obtain ⟨hrunning, hasked⟩ := h.serving
  obtain ⟨round, asked, outcome, hcurrent, hround, hcases⟩ := hrunning.endBlock_cases hend
  obtain ⟨_, _, htook⟩ := hrunning.round
  by_cases hregistration : current.1 = .registration
  · refine ⟨.inl hregistration, ?_⟩
    rcases hcases with ⟨_, hanswer, hsame⟩ | ⟨event, next, _, hanswer, hnext, hresult, hnew⟩
    · exact .inl ⟨hanswer, ⟨hsame, hasked⟩, h.kind_ne, h.blank⟩
    · have hkept := hresult.participants_eq htook.poll_took hrunning.participants_eq
      rw [hasked] at hkept
      refine .inr ⟨event, next, hanswer, entered (fun _ => hregistration) hnext ?_ hkept hnew⟩
      generalize next.2.store = result at hresult
      rw [hregistration] at hresult
      cases hresult with
      | noMajority hf => exact absurd rfl hf
      | registered => exact h.blank.update _
  · have hkind : current.1 = .collectObservation ∨ current.1 = .reset := by
      have hestimate := h.kind_ne
      generalize current.1 = kind at hregistration hestimate
      cases kind <;> simp_all
    have hgiven := h.gives_up ht hfew hcurrent hkind
    rw [hround] at hgiven
    cases hgiven
    rcases hcases with ⟨hf, _⟩ | ⟨event, next, hsome, hanswer, hnext, _, hnew⟩
    · cases hf
    · obtain ⟨hstore, rfl⟩ := Prod.mk.inj (Option.some.inj hsome)
      rw [hrunning.store_eq] at hstore
      have hdone : Event.noMajority = .done → current.1 = .registration := nofun
      refine ⟨.inr hanswer, .inr ⟨_, next, hanswer, entered hdone hnext ?_ ?_ hnew⟩⟩
      · rw [← hstore]
        exact h.blank
      · rw [← hstore, hrunning.participants_eq, hasked]

theorem tracks (ht : config.params.threshold = .ok threshold) (hfew : participants.size < threshold) :
    Machine.Tracks (Barren settings config participants) where
  updateTime := by
    intro current taken machine now answer after h htime
    rcases h.updateTime htime with ⟨hanswer, hsame⟩ | ⟨event, next, hanswer, _, hnew⟩
    · exact ⟨none, hanswer, .stays hsame⟩
    · exact ⟨some event, hanswer, .moves hnew⟩
  processTransaction := by
    intro current taken machine tx answer after h hcheck hprocess
    obtain ⟨hanswer, hafter⟩ := h.serving.1.processTransaction hcheck hprocess
    exact ⟨hanswer, ⟨hafter, h.serving.2⟩, h.kind_ne, h.blank⟩
  endBlock := by
    intro current taken machine answer after h hend
    rcases (h.endBlock ht hfew hend).2 with ⟨hanswer, hsame⟩ | ⟨event, next, hanswer, hnew⟩
    · exact ⟨none, hanswer, .stays hsame⟩
    · exact ⟨some event, hanswer, .moves hnew⟩

end Barren

/-- No round but a registration ever has a result. -/
structure NeverAgrees (replica : OracleReplica) (endings : List OracleEnding) : Prop where
  ended : ∀ e ∈ endings, e.kind ≠ .estimateConsensus ∧ (e.event = .done → e.kind = .registration)
  kind_ne : replica.machine.currentKind ≠ some .estimateConsensus
  gives_up : ∀ kind round, replica.machine.current = some (kind, round) →
    kind = .collectObservation ∨ kind = .reset →
    round.endBlock = .ok (some (replica.machine.store, .noMajority), round)
  endBlock_eq : ∀ block answer after, replica.phase = .delivering block →
    replica.machine.currentKind ≠ some .registration → replica.endBlock = .ok (answer, after) →
      answer = .ok (some .noMajority)
  blank : Blank replica.machine.store

theorem SetUp.currentKind_eq (h : SetUp settings participants config start) :
    start.machine.currentKind = some .registration := by
  obtain ⟨machine, hmachine, hsetup⟩ := h
  obtain ⟨⟨answer, entered⟩, henter, heq⟩ := Checked.bind_eq_ok_iff.1 hsetup
  cases heq
  obtain ⟨happ, _, _, hstore, _⟩ := machine_eq hmachine
  obtain ⟨_, timeouts, awaitsTime, _, rfl⟩ := Machine.setup_eq_ok (build_eq happ hstore _) henter
  rw [Machine.currentKind_of_current rfl, happ]
  rfl

theorem SetUp.barren (h : SetUp settings participants config start) :
    Replica.Held (Barren settings config participants) start := by
  obtain ⟨_, _, current, hrunning, hasked⟩ := h.running
  obtain ⟨round, hcurrent, _⟩ := hrunning.round
  have hkind := h.currentKind_eq
  rw [Machine.currentKind_of_current hcurrent] at hkind
  have hblank : Blank current.2.store := by
    rw [← hrunning.store_eq, h.store_eq]
    exact blank_ofSetup participants
  refine ⟨current, [], ⟨hrunning, hasked⟩, ?_, hblank⟩
  rw [Option.some.inj hkind]
  decide

theorem neverAgrees (hsetUp : SetUp settings participants config start)
    (ht : config.params.threshold = .ok threshold) (hfew : participants.size < threshold)
    (h : Recounts start replica endings) : NeverAgrees replica endings := by
  have htracks : Machine.Tracks (Barren settings config participants) := Barren.tracks ht hfew
  obtain ⟨current, taken, hbarren⟩ := h.held htracks hsetUp.barren
  obtain ⟨round, hcurrent, _⟩ := hbarren.serving.1.round
  have hkind := Machine.currentKind_of_current hcurrent
  refine ⟨?_, ?_, ?_, ?_, ?_⟩
  · refine h.forall_mem htracks hsetUp.barren ?_ ?_
    · intro current taken machine now answer after hbarren htime e he
      obtain ⟨round, hcurrent, _⟩ := hbarren.serving.1.round
      rw [Machine.currentKind_of_current hcurrent] at he
      rcases hbarren.updateTime htime with ⟨rfl, _⟩ | ⟨event, _, rfl, hdone, _⟩
      · cases he
      · obtain rfl := List.mem_singleton.1 he
        exact ⟨hbarren.kind_ne, fun hf => absurd hf hdone⟩
    · intro current taken machine answer after hbarren hend e he
      obtain ⟨round, hcurrent, _⟩ := hbarren.serving.1.round
      rw [Machine.currentKind_of_current hcurrent] at he
      obtain ⟨hgives, ⟨rfl, _⟩ | ⟨event, _, rfl, _⟩⟩ := hbarren.endBlock ht hfew hend
      · cases he
      · obtain rfl := List.mem_singleton.1 he
        refine ⟨hbarren.kind_ne, fun hdone => hgives.resolve_right fun hf => ?_⟩
        obtain rfl : event = .done := hdone
        cases hf
  · rw [hkind]
    exact fun hf => hbarren.kind_ne (Option.some.inj hf)
  · intro kind round hround hthreshold
    exact hbarren.gives_up ht hfew hround hthreshold
  · intro block answer after hphase hregistration hend
    rcases Replica.endBlock_cases hend with ⟨hf, _⟩ | ⟨_, machine, _, _, hended, _⟩
    · exact absurd hphase (hf block)
    · refine (hbarren.endBlock ht hfew hended).1.resolve_left fun hf => ?_
      rw [hkind, hf] at hregistration
      exact hregistration rfl
  · rw [hbarren.serving.1.store_eq]
    exact hbarren.blank

/-- In every state that blocks lead to, also in the middle of a block. -/
theorem who_reports_no_majority (hsetUp : SetUp settings participants config start)
    (hmax : config.params.maxParticipants.toNat < 2 ^ 63) :
    (∀ blocks outcomes replica, start.processAll blocks = .ok (outcomes, replica) →
      ∃ endings, Recounts start replica endings) ∧
    ∃ threshold, config.params.threshold = .ok threshold ∧
      (threshold ≤ participants.size → ∀ replica endings, Recounts start replica endings →
        SplitsOnlyOnEstimates replica endings) ∧
      (participants.size < threshold → ∀ replica endings, Recounts start replica endings →
        NeverAgrees replica endings) := by
  obtain ⟨threshold, ht⟩ := ConsensusParams.exists_threshold hmax
  refine ⟨fun blocks outcomes replica hall => Recounts.start.processAll hall, threshold, ht, ?_, ?_⟩
  · intro henough replica endings h
    exact splitsOnlyOnEstimates hsetUp ht henough h
  · intro hfew replica endings h
    exact neverAgrees hsetUp ht hfew h

def blockOf (height : UInt64) (txs : List (Transaction Payload)) : Block :=
  ⟨⟨height, .ofSeconds height⟩, txs.map Wire.write⟩

/-- Four participants of four, who estimate three prices. -/
def splitBlocks : List Block :=
  [blockOf 1 [⟨"a", .registration⟩, ⟨"b", .registration⟩, ⟨"c", .registration⟩,
      ⟨"d", .registration⟩],
    blockOf 2 [⟨"a", .observation ⟨0⟩⟩, ⟨"b", .observation ⟨0⟩⟩, ⟨"c", .observation ⟨0⟩⟩],
    blockOf 3 [⟨"a", .estimate ⟨0⟩⟩, ⟨"b", .estimate ⟨1⟩⟩, ⟨"c", .estimate ⟨2⟩⟩]]

/-- One participant of four. -/
def lonelyBlocks : List Block :=
  [blockOf 1 [⟨"a", .registration⟩], blockOf 2 [⟨"a", .observation ⟨0⟩⟩],
    blockOf 3 [⟨"a", .reset 1⟩]]

def events (outcomes : List (Except Error (BlockOutcome Event))) : List (Option Event) :=
  outcomes.map fun outcome => outcome.toOption.bind BlockOutcome.event

/-- Blocks that end the rounds with these events. -/
def EndsWith (start replica : OracleReplica) (blocks : List Block) (expected : List (Option Event)) :
    Prop := ∃ outcomes, start.processAll blocks = .ok (outcomes, replica) ∧ events outcomes = expected

theorem exists_endsWith {blocks : List Block} {expected : List (Option Event)}
    (hrun : ((settings.start? participants config).map fun start =>
      (start.processAll blocks).map fun out => events out.1) = some (.ok expected)) :
    ∃ start replica endings, SetUp settings participants config start ∧
      Recounts start replica endings ∧ EndsWith start replica blocks expected := by
  obtain ⟨start, ⟨outcomes, replica⟩, hsetUp, hall, hevents⟩ := exists_after hrun
  obtain ⟨endings, hrecounts⟩ := Recounts.start.processAll hall
  exact ⟨start, replica, endings, hsetUp, hrecounts, outcomes, hall, hevents⟩

theorem who_reports_no_majority_of_four :
    (∃ (start replica : OracleReplica) (endings : List OracleEnding),
      SetUp {} fourAddresses fourConfig start ∧ Recounts start replica endings ∧
      EndsWith start replica splitBlocks [some .done, some .done, some .noMajority] ∧
      SplitsOnlyOnEstimates replica endings) ∧
    ∃ (start replica : OracleReplica) (endings : List OracleEnding),
      SetUp {} alone fourConfig start ∧ Recounts start replica endings ∧
      EndsWith start replica lonelyBlocks [some .done, some .noMajority, some .noMajority] ∧
      NeverAgrees replica endings := by
  have hthree : fourConfig.params.threshold = .ok 3 := rfl
  constructor
  · have hrun : ((({} : Settings).start? fourAddresses fourConfig).map
        fun start => (start.processAll splitBlocks).map fun out => events out.1) =
        some (.ok [some .done, some .done, some .noMajority]) := by
      decide +kernel
    obtain ⟨start, replica, endings, hsetUp, hrecounts, hends⟩ := exists_endsWith hrun
    obtain ⟨_, threshold, ht, henough, _⟩ := who_reports_no_majority hsetUp (by decide)
    cases hthree.symm.trans ht
    exact ⟨start, replica, endings, hsetUp, hrecounts, hends,
      henough (by decide) replica endings hrecounts⟩
  · have hrun : ((({} : Settings).start? alone fourConfig).map fun start =>
        (start.processAll lonelyBlocks).map fun out => events out.1) =
        some (.ok [some .done, some .noMajority, some .noMajority]) := by
      decide +kernel
    obtain ⟨start, replica, endings, hsetUp, hrecounts, hends⟩ := exists_endsWith hrun
    obtain ⟨_, threshold, ht, _, hfew⟩ := who_reports_no_majority hsetUp (by decide)
    cases hthree.symm.trans ht
    exact ⟨start, replica, endings, hsetUp, hrecounts, hends,
      hfew (by decide) replica endings hrecounts⟩

end QuorumRounds.PriceOracle
