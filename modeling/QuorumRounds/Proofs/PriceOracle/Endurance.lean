import QuorumRounds.Proofs.Machine.Restart
import QuorumRounds.Proofs.PriceOracle.Bounds
import QuorumRounds.Proofs.PriceOracle.Service
import QuorumRounds.Proofs.Replica.Endurance

/-! # The price oracle does not overflow

Two things are kept by every step of a machine. What it has counted is at most `k` (`Bounded`): only a
timestamp or the end of a block adds to it, and only one. And the round that is active asks the
participants of the setup, who are no more than admissible (`Asking`), so that their votes can be
added up. A setup without participants never enters a round. -/

namespace QuorumRounds.PriceOracle
set_option autoImplicit false

variable {settings : Settings} {config : Config RoundKind} {machine after : OracleMachine} {k : Nat}

/-! ## Timeouts -/

/-- Either timeout can be added to the timestamp. -/
def Settings.Fits (settings : Settings) (timestamp : Duration) : Prop :=
  timestamp.nanos + max settings.roundTimeout.nanos settings.resetTimeout.nanos <
    UInt64.size * 1000000000

instance (settings : Settings) (timestamp : Duration) : Decidable (settings.Fits timestamp) :=
  inferInstanceAs (Decidable (_ < _))

theorem Settings.Fits.canSchedule {timestamp : Duration} (h : settings.Fits timestamp) :
    settings.application.CanSchedule timestamp := by
  have hadd : ∀ span : Duration,
      span.nanos ≤ max settings.roundTimeout.nanos settings.resetTimeout.nanos →
        ∃ deadline, timestamp.add span = .ok deadline := by
    intro span hle
    exact ⟨_, dif_pos (Nat.lt_of_le_of_lt (Nat.add_le_add_left hle _) h)⟩
  intro event span hspan
  cases event with
  | done => cases hspan
  | noMajority => cases hspan
  | roundTimeout =>
    cases hspan
    exact hadd _ (Nat.le_max_left ..)
  | resetTimeout =>
    cases hspan
    exact hadd _ (Nat.le_max_right ..)

theorem length_timeoutEvents_le (kind : RoundKind) :
    (settings.application.timeoutEvents kind).length ≤ 1 := by
  cases kind with
  | registration => exact Nat.zero_le 1
  | collectObservation => exact Nat.le_refl 1
  | estimateConsensus => exact Nat.le_refl 1
  | reset => exact Nat.le_refl 1

/-! ## What a machine has counted -/

structure Bounded (settings : Settings) (k : Nat) (machine : OracleMachine) : Prop where
  app_eq : machine.app = settings.application
  setup_period : machine.setupStore.period.toNat ≤ k
  fits : ∀ timestamp, machine.lastTimestamp = some timestamp → settings.Fits timestamp
  height_le : machine.height.toNat ≤ k
  spent : ∀ kind round, machine.current = some (kind, round) → round.Spent k

/-- Without a round nothing has been spent. -/
theorem spent_of_none (h : machine.current = none) (kind : RoundKind) (round : Round)
    (hcurrent : machine.current = some (kind, round)) : round.Spent k := by
  rw [h] at hcurrent
  cases hcurrent

namespace Bounded

theorem grow (h : Bounded settings k machine) : Bounded settings (k + 1) machine where
  app_eq := h.app_eq
  setup_period := Nat.le_succ_of_le h.setup_period
  fits := h.fits
  height_le := Nat.le_succ_of_le h.height_le
  spent := fun kind round hcurrent => (h.spent kind round hcurrent).grow

theorem canSchedule (h : Bounded settings k machine) (timestamp : Duration)
    (hlast : machine.lastTimestamp = some timestamp) : machine.app.CanSchedule timestamp := by
  rw [h.app_eq]
  exact (h.fits timestamp hlast).canSchedule

theorem steady (h : Bounded settings k machine) (hk : k + 1 < UInt64.size) : machine.Steady :=
  ⟨Nat.lt_of_le_of_lt (Nat.succ_le_succ h.height_le) hk, h.canSchedule⟩

/-- The round that is entered has spent nothing but the number of its period. -/
theorem enter {kind : RoundKind} {round : Round} {store : Store} (h : Bounded settings k machine)
    (hbuild : machine.build kind store = .ok round) (hperiod : store.period.toNat ≤ k)
    (henter : machine.enter kind round = .ok after) : Bounded settings k after := by
  rw [Machine.build, h.app_eq] at hbuild
  obtain ⟨timeouts, awaitsTime, _, rfl⟩ := Machine.enter_eq_ok henter
  refine ⟨h.app_eq, h.setup_period, h.fits, h.height_le, ?_⟩
  rintro _ _ ⟨⟩
  exact Round.spent_of_build hbuild hperiod

theorem setup (h : Bounded settings k machine) {answer : Except Error Unit}
    (hsetup : machine.setup = .ok (answer, after)) : Bounded settings k after := by
  have hcleared : Bounded settings k machine.cleared :=
    ⟨h.app_eq, h.setup_period, h.fits, Nat.zero_le k, h.spent⟩
  rcases Machine.setup_cases hsetup with ⟨e, _, _, rfl⟩ | ⟨round, hbuild, _, henter⟩
  · exact hcleared
  · exact hcleared.enter hbuild h.setup_period henter

/-- An event raises the height by one. -/
theorem eventOutcome {event : Event} {result : Option Store} {answer : Except Error Unit}
    (h : Bounded settings (k + 1) machine) (hheight : machine.height.toNat ≤ k)
    (hresult : ∀ store, result = some store → store.period.toNat ≤ k + 1)
    (houtcome : Machine.EventOutcome machine event result answer after) :
    Bounded settings (k + 1) after := by
  cases houtcome with
  | ignored => exact h
  | stopped => exact ⟨h.app_eq, h.setup_period, h.fits, h.height_le, spent_of_none rfl⟩
  | refused => exact h
  | @moved kind next round successor height _ hcurrent _ hbuild hnext henter =>
    have hperiod : (result.getD (RoundBehavior.store round)).period.toNat ≤ k + 1 := by
      cases result with
      | none => exact (h.spent kind round hcurrent).period_le
      | some store => exact hresult store rfl
    have hraised : Bounded settings (k + 1)
        { machine.leave kind (result.getD (RoundBehavior.store round)) with height := height } := by
      refine ⟨h.app_eq, h.setup_period, h.fits, ?_, spent_of_none rfl⟩
      show height.toNat ≤ k + 1
      rw [Word.succ_eq_ok_iff.1 hnext]
      exact Nat.succ_le_succ hheight
    exact hraised.enter hbuild hperiod henter

theorem updateTime (h : Bounded settings k machine) {now : Duration}
    {answer : Except Error (Option Event)} (hfits : settings.Fits now)
    (htime : machine.updateTime now = .ok (answer, after)) : Bounded settings (k + 1) after := by
  have hstamped : ∀ timeouts, Bounded settings (k + 1) { machine with
      timeouts := timeouts, awaitsTime := false, lastTimestamp := some now } := by
    intro timeouts
    refine ⟨h.app_eq, h.grow.setup_period, ?_, h.grow.height_le, h.grow.spent⟩
    rintro _ ⟨⟩
    exact hfits
  have houtcome : Machine.Outcome machine (.updateTime now) answer after := Machine.ask_outcome htime
  cases houtcome with
  | stamped => exact hstamped _
  | expired _ _ hevent =>
    have hnone : ∀ store : Store, none = some store → store.period.toNat ≤ k + 1 := by
      intro store hstore
      cases hstore
    exact (hstamped _).eventOutcome h.height_le hnone hevent

theorem processTransaction (h : Bounded settings k machine) {tx : Transaction Payload}
    {answer : Except Error Unit}
    (hprocess : machine.processTransaction tx = .ok (answer, after)) :
    Bounded settings k after := by
  have hcall : machine.call (.processTransaction tx) = .ok (answer, after) := hprocess
  obtain ⟨_, houtcome, _⟩ := Machine.call_outcome hcall
  cases houtcome with
  | unheard => exact h
  | processed hcurrent hmoved =>
    refine ⟨h.app_eq, h.setup_period, h.fits, h.height_le, ?_⟩
    rintro _ _ ⟨⟩
    exact (h.spent _ _ hcurrent).process hmoved

theorem endBlock (h : Bounded settings k machine) {answer : Except Error (Option Event)}
    (hend : machine.endBlock = .ok (answer, after)) : Bounded settings (k + 1) after := by
  have hbounded : ∀ {kind round outcome asked}, machine.current = some (kind, round) →
      RoundBehavior.endBlock round = .ok (outcome, asked) →
      Bounded settings (k + 1) { machine with current := some (kind, asked) } := by
    intro kind round outcome asked hcurrent hasked
    refine ⟨h.app_eq, h.grow.setup_period, h.fits, h.grow.height_le, ?_⟩
    rintro _ _ ⟨⟩
    exact ((h.spent kind round hcurrent).endBlock hasked).1
  have houtcome : Machine.Outcome machine .endBlock answer after := Machine.ask_outcome hend
  cases houtcome with
  | unasked => exact h.grow
  | undecided hcurrent hasked => exact hbounded hcurrent hasked
  | @decided kind round _ store event _ _ hcurrent hasked hevent =>
    refine (hbounded hcurrent hasked).eventOutcome h.height_le ?_ hevent
    rintro _ ⟨⟩
    exact ((h.spent kind round hcurrent).endBlock hasked).2 store event rfl

/-! ## Progress -/

theorem exists_checkTransaction (h : Bounded settings k machine) (hk : k + 1 < UInt64.size)
    (tx : Transaction Payload) : ∃ answer, machine.checkTransaction tx = .ok answer := by
  cases hcurrent : machine.current with
  | none => exact ⟨_, by simp only [Machine.checkTransaction, hcurrent]; rfl⟩
  | some entry =>
    obtain ⟨answer, hcheck⟩ := (h.spent _ _ hcurrent).exists_check hk tx
    refine ⟨answer.mapError .invalidTransaction, ?_⟩
    simp only [Machine.checkTransaction, hcurrent]
    exact Checked.bind_eq_ok_iff.2 ⟨answer, hcheck, rfl⟩

theorem exists_processTransaction (h : Bounded settings k machine) (hk : k + 1 < UInt64.size)
    (tx : Transaction Payload) :
    ∃ answer after, machine.processTransaction tx = .ok (answer, after) := by
  cases hcurrent : machine.current with
  | none => exact ⟨_, machine, by simp only [Machine.processTransaction, hcurrent]; rfl⟩
  | some entry =>
    obtain ⟨answer, moved, hprocess⟩ := (h.spent _ _ hcurrent).exists_process hk tx
    refine ⟨answer.mapError .internal, { machine with current := some (entry.1, moved) }, ?_⟩
    simp only [Machine.processTransaction, hcurrent]
    exact Checked.bind_eq_ok_iff.2 ⟨(answer, moved), hprocess, rfl⟩

end Bounded

/-! ## Who is asked -/

structure Asking (settings : Settings) (config : Config RoundKind) (machine : OracleMachine) :
    Prop where
  app_eq : machine.app = settings.application
  config_eq : machine.config = config
  admissible : ∀ participants, machine.setupStore.participants = .ok participants →
    participants.size ≤ config.params.maxParticipants.toNat
  serving : machine.Stopped ∨
    ∃ participants current taken, machine.setupStore.participants = .ok participants ∧
      Serving settings config participants current taken machine

namespace Asking

/-- Calls never change what a machine was made with. -/
theorem of_call (h : Asking settings config machine) {call : Machine.Call Event Payload}
    {answer : Except Error Unit} (hcall : machine.call call = .ok (answer, after))
    (hserving : after.Stopped ∨
      ∃ participants current taken, machine.setupStore.participants = .ok participants ∧
        Serving settings config participants current taken after) :
    Asking settings config after := by
  obtain ⟨happ, hconfig, _, hsetup⟩ := Machine.SameArguments.call hcall
  refine ⟨happ.trans h.app_eq, hconfig.trans h.config_eq, ?_, ?_⟩
  · rw [hsetup]
    exact h.admissible
  · rw [hsetup]
    exact hserving

theorem setup (h : Asking settings config machine) {answer : Except Error Unit}
    (hsetup : machine.setup = .ok (answer, after)) : Asking settings config after := by
  have hcall : machine.call Machine.Call.setup = .ok (answer, after) := hsetup
  refine h.of_call hcall ?_
  cases hbuild : machine.build machine.app.initial machine.setupStore with
  | error e =>
    rw [Machine.setup_eq_error hbuild] at hsetup
    cases hsetup
    rcases h.serving with hstopped | ⟨participants, current, taken, hread, hrunning, hsame⟩
    · exact .inl ⟨hstopped.current_eq, hstopped.timeouts_eq⟩
    · exact .inr ⟨participants, current, taken, hread, ⟨hrunning.app_eq, hrunning.config_eq,
        hrunning.params_eq, hrunning.allowed_eq, hrunning.participants_eq, hrunning.round,
        hrunning.timeouts⟩, hsame⟩
  | ok round =>
    rw [Machine.build, h.app_eq] at hbuild
    have hfound : ∃ participants, machine.setupStore.participants = .ok participants :=
      Round.exists_participants_of_build (show buildRound crossPeriodKeys
        settings.periodHistoryDepth .registration _ = .ok round from hbuild)
    obtain ⟨participants, hread⟩ := hfound
    obtain ⟨poll, hrunning, hsame⟩ := running_of_setup h.app_eq h.config_eq hread hsetup
    exact .inr ⟨participants, (.registration, poll), [], hread, hrunning, hsame⟩

theorem updateTime (h : Asking settings config machine) {now : Duration}
    {answer : Except Error (Option Event)} (htime : machine.updateTime now = .ok (answer, after)) :
    Asking settings config after := by
  have hcall : machine.call (Machine.Call.updateTime now) = .ok (answer.map fun _ => (), after) :=
    Checked.map_eq_ok_iff.2 ⟨_, htime, rfl⟩
  refine h.of_call hcall ?_
  rcases h.serving with hstopped | ⟨participants, current, taken, hread, hserving⟩
  · cases (hstopped.updateTime now).symm.trans htime
    exact .inl (hstopped.stamp now)
  · obtain ⟨_, _, hpasses⟩ := (serving_tracks settings config participants).updateTime hserving htime
    obtain ⟨next, hnext⟩ := hpasses.exists_holds
    exact .inr ⟨participants, next, _, hread, hnext⟩

theorem processTransaction (h : Asking settings config machine) {tx : Transaction Payload}
    {answer : Except Error Unit} (hcheck : machine.checkTransaction tx = .ok (.ok ()))
    (hprocess : machine.processTransaction tx = .ok (answer, after)) :
    Asking settings config after := by
  have hcall : machine.call (Machine.Call.processTransaction tx) = .ok (answer, after) := hprocess
  refine h.of_call hcall ?_
  rcases h.serving with hstopped | ⟨participants, current, taken, hread, hserving⟩
  · cases (hstopped.processTransaction tx).symm.trans hprocess
    exact .inl hstopped
  · obtain ⟨_, hafter⟩ :=
      (serving_tracks settings config participants).processTransaction hserving hcheck hprocess
    exact .inr ⟨participants, current, _, hread, hafter⟩

theorem endBlock (h : Asking settings config machine) {answer : Except Error (Option Event)}
    (hend : machine.endBlock = .ok (answer, after)) : Asking settings config after := by
  have hcall : machine.call Machine.Call.endBlock = .ok (answer.map fun _ => (), after) :=
    Checked.map_eq_ok_iff.2 ⟨_, hend, rfl⟩
  refine h.of_call hcall ?_
  rcases h.serving with hstopped | ⟨participants, current, taken, hread, hserving⟩
  · cases hstopped.endBlock.symm.trans hend
    exact .inl hstopped
  · obtain ⟨_, _, hpasses⟩ := (serving_tracks settings config participants).endBlock hserving hend
    obtain ⟨next, hnext⟩ := hpasses.exists_holds
    exact .inr ⟨participants, next, _, hread, hnext⟩

theorem sum_of_current (h : Asking settings config machine) {kind : RoundKind} {round : Round}
    (hcurrent : machine.current = some (kind, round)) : ∃ total, round.sum = .ok total := by
  rcases h.serving with hstopped | ⟨participants, current, taken, hread, hrunning, hsame⟩
  · cases hcurrent.symm.trans hstopped.current_eq
  · obtain ⟨other, hother, htook⟩ := hrunning.round
    cases hcurrent.symm.trans hother
    have hsize : current.2.participants.size < UInt64.size := by
      rw [hsame]
      exact Nat.lt_of_le_of_lt (h.admissible participants hread) (Word.toNat_lt_size _)
    exact htook.exists_sum hsize

theorem exists_sum (h : Asking settings config machine) :
    ∃ total, Numbered.sumOf Round.sum machine = .ok total := by
  cases hcurrent : machine.current with
  | none => exact ⟨none, by simp only [Numbered.sumOf, Machine.currentRound, hcurrent]; rfl⟩
  | some entry =>
    obtain ⟨total, htotal⟩ := h.sum_of_current hcurrent
    refine ⟨some total, ?_⟩
    simp only [Numbered.sumOf, Machine.currentRound, hcurrent, Option.map_some]
    exact Checked.map_eq_ok_iff.2 ⟨total, htotal, rfl⟩

/-- A round that is asked for its decision knows its threshold. -/
theorem threshold_of_current (h : Asking settings config machine) {threshold : Nat}
    (ht : config.params.threshold = .ok threshold) {kind : RoundKind} {round : Round}
    (hcurrent : machine.current = some (kind, round)) : round.poll.threshold = .ok threshold := by
  rcases h.serving with hstopped | ⟨participants, current, taken, _, hrunning, _⟩
  · cases hcurrent.symm.trans hstopped.current_eq
  · obtain ⟨other, hother, htook⟩ := hrunning.round
    cases hcurrent.symm.trans hother
    rw [htook.poll_eq, Poll.threshold, hrunning.params_eq, ht]

/-- What the round adds up is what its answer depends on. -/
theorem possible_of_current (h : Asking settings config machine) {threshold : Nat}
    (ht : config.params.threshold = .ok threshold) {round : Round}
    (hcurrent : machine.currentRound = some round) :
    ∃ total needed, round.sum = .ok total ∧ round.needed = .ok needed ∧
      round.isMajorityPossible = .ok (decide (needed ≤ total.toNat)) := by
  obtain ⟨⟨kind, _⟩, hentry, rfl⟩ := Option.map_eq_some_iff.1 hcurrent
  obtain ⟨total, htotal⟩ := h.sum_of_current hentry
  obtain ⟨needed, hneeded⟩ := Round.exists_needed (h.threshold_of_current ht hentry)
  refine ⟨total, needed, htotal, hneeded, ?_⟩
  rw [Round.isMajorityPossible_of_sum htotal, hneeded]
  rfl

end Asking

/-! ## Runs -/

theorem endures {threshold : Nat} (ht : config.params.threshold = .ok threshold) :
    Machine.Endures settings.Fits Round.sum fun k machine =>
      Bounded settings k machine ∧ Asking settings config machine where
  grow := fun h => ⟨h.1.grow, h.2⟩
  few := by
    rintro k machine ⟨hbounded, _⟩ kind
    rw [hbounded.app_eq]
    exact length_timeoutEvents_le kind
  exists_sum := fun h => h.2.exists_sum
  exists_setup := fun h => Machine.exists_setup_of_canSchedule h.1.canSchedule
  setup := fun h hsetup => ⟨h.1.setup hsetup, h.2.setup hsetup⟩
  exists_updateTime := by
    rintro k machine now ⟨hbounded, _⟩ hk hfits
    refine Machine.exists_updateTime (hbounded.steady hk).height_lt ?_
    rw [hbounded.app_eq]
    exact hfits.canSchedule
  updateTime := fun h hfits htime => ⟨h.1.updateTime hfits htime, h.2.updateTime htime⟩
  exists_check := fun h hk => h.1.exists_checkTransaction hk
  exists_process := fun h hk => h.1.exists_processTransaction hk
  process := fun h hcheck hprocess =>
    ⟨h.1.processTransaction hprocess, h.2.processTransaction hcheck hprocess⟩
  exists_endBlock := by
    rintro k machine ⟨hbounded, hasking⟩ hk
    refine (hbounded.steady hk).exists_endBlock ?_
    intro kind round hcurrent
    have hthreshold := hasking.threshold_of_current ht hcurrent
    exact (hbounded.spent kind round hcurrent).exists_endBlock hk hthreshold
  endBlock := fun h hend => ⟨h.1.endBlock hend, h.2.endBlock hend⟩

section NewMachine
variable {setup : SortedMap String Value} {registry : Registry Kind}

theorem bounded_ofApplication
    (h : Machine.ofApplication settings.application setup config registry = .ok machine) :
    Bounded settings 0 machine := by
  rw [Machine.ofApplication_eq_ok h]
  exact ⟨rfl, Nat.le_refl 0, nofun, Nat.le_refl 0, spent_of_none rfl⟩

theorem asking_ofApplication
    (h : Machine.ofApplication settings.application setup config registry = .ok machine) :
    Asking settings config machine := by
  have hsize : ∀ participants, (Store.ofSetup setup).participants = .ok participants →
      participants.size ≤ config.params.maxParticipants.toNat :=
    fun _ hread => Machine.size_le_of_ofApplication h hread
  rw [Machine.ofApplication_eq_ok h]
  exact ⟨rfl, rfl, hsize, .inl ⟨rfl, rfl⟩⟩

/-- Whatever is served and whatever it answers, no word overflows: not the threshold, the sums of
votes, the confirmations, the heights, the periods, the deadlines or the numbers of the timeouts. The
sum that the current round makes is the one that its answer depends on. Nor does a difference go below
zero: those from which the quorum is made, and the one that says how many old periods are held. -/
theorem block_processing_never_overflows {demands : List Demand}
    (h : Machine.ofApplication settings.application setup config registry = .ok machine)
    (hmax : config.params.maxParticipants.toNat < 2 ^ 63) (hlength : demands.length < 2 ^ 62)
    (hfits : ∀ demand ∈ demands, ∀ timestamp ∈ demand.timestamps, settings.Fits timestamp) :
    (∃ last : Numbered RoundKind Event Kind Round,
      Numbered.run Round.sum ⟨Replica.ofMachine machine, 0⟩ demands = .ok last ∧
        (Replica.ofMachine machine).serveAll demands = .ok last.replica ∧
        ∀ round, last.replica.machine.currentRound = some round →
          ∃ total needed, round.sum = .ok total ∧ round.needed = .ok needed ∧
            round.isMajorityPossible = .ok (decide (needed ≤ total.toNat))) ∧
      1 ≤ config.params.maxParticipants.toNat ∧
      config.params.maxFaulty ≤ config.params.maxParticipants.toNat ∧
      1 ≤ max settings.periodHistoryDepth.toNat 1 := by
  obtain ⟨threshold, ht⟩ := ConsensusParams.exists_threshold hmax
  have hstart : Numbered.Within
      (fun k machine => Bounded settings k machine ∧ Asking settings config machine) 0
      ⟨Replica.ofMachine machine, 0⟩ :=
    ⟨⟨⟨bounded_ofApplication h, asking_ofApplication h⟩, Nat.le_refl 0, nofun⟩, Nat.le_refl 0⟩
  have hroom : 2 * (0 + 2 * demands.length) < UInt64.size := by
    simp only [UInt64.size]
    omega
  obtain ⟨last, hrun, hwithin⟩ := hstart.run (endures ht) hroom hfits
  obtain ⟨_, hasking⟩ := hwithin.replica.machine
  refine ⟨⟨last, hrun, Numbered.run_forget hrun, fun _ hcurrent =>
    hasking.possible_of_current ht hcurrent⟩, config.params.positive, ?_, Nat.le_max_right ..⟩
  rw [ConsensusParams.maxFaulty]
  omega

end NewMachine

/-- Two timeouts are scheduled: that of the round that follows the first block, and that of the reset
to which it leads in the second. -/
def timedDemands : List Demand :=
  [.setup, .call (.processBlock (blockFrom 1 ["a", "b", "c", "d"] .registration)),
    .call (.beginBlock ⟨2, .ofSeconds 40⟩), .call (.checkTx (sent "a" .registration)),
    .call .endBlock, .call .commit]

theorem block_processing_never_overflows_for_four :
    ∃ machine last, ({} : Settings).machine fourAddresses fourConfig = .ok machine ∧
      Numbered.run Round.sum ⟨Replica.ofMachine machine, 0⟩ timedDemands = .ok last ∧
      last.next = 2 ∧ last.replica.height = 2 ∧ last.replica.machine.currentKind = some .reset ∧
      (Replica.ofMachine machine).serveAll timedDemands = .ok last.replica := by
  have hrun : (({} : Settings).machine fourAddresses fourConfig).toOption.map (fun machine =>
      (Numbered.run Round.sum ⟨Replica.ofMachine machine, 0⟩ timedDemands).map fun last =>
        (last.next, last.replica.height, last.replica.machine.currentKind)) =
      some (.ok (2, 2, some .reset)) := by decide +kernel
  obtain ⟨machine, last, hmachine, hlast, hseen⟩ := exists_machine_after hrun
  simp only [Prod.mk.injEq] at hseen
  obtain ⟨hnumber, hheight, hkind⟩ := hseen
  obtain ⟨shapes, hnew⟩ := ofApplication_of_machine hmachine
  obtain ⟨⟨numbered, hnumbered, hserved, _⟩, _⟩ :=
    block_processing_never_overflows hnew (by decide) (by decide) (show
      ∀ demand ∈ timedDemands, ∀ timestamp ∈ demand.timestamps, ({} : Settings).Fits timestamp
      by decide)
  cases hlast.symm.trans hnumbered
  exact ⟨machine, last, hmachine, hlast, hnumber, hheight, hkind, hserved⟩

end QuorumRounds.PriceOracle
