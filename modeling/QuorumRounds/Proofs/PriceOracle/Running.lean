import QuorumRounds.Machine.Calls
import QuorumRounds.Proofs.Ballot.Agreement
import QuorumRounds.Proofs.Machine.Steps
import QuorumRounds.Proofs.PriceOracle.Rounds
import QuorumRounds.Proofs.Replica.Steps
import QuorumRounds.Proofs.Store.Reads

/-! # The price oracle never gets stuck

`Running settings config (kind, poll) taken machine` says that the machine is in a round of that
kind, which was built with that poll and has taken the transactions in `taken`. Whatever ends the
round, another one follows: every event that can occur has an edge (`Outcome.exists_next`), and the
store that is handed on names the same participants (`Outcome.participants_eq`), so that the next
round can be built. So the machine tracks its round (`tracks`).

* `Running.updateTime`: a timeout hands on the store as it is.
* `Running.endBlock`: a decision hands on the outcome of the round. -/

namespace QuorumRounds.PriceOracle
set_option autoImplicit false

abbrev OracleMachine := Machine RoundKind Event Kind Round

abbrev OracleReplica := Replica RoundKind Event Kind Round

/-- A replica that has been set up and has not seen a block yet. -/
def SetUp (settings : Settings) (participants : SortedSet String) (config : Config RoundKind)
    (start : OracleReplica) : Prop :=
  ∃ machine, settings.machine participants config = .ok machine ∧
    (Replica.ofMachine machine).setup = .ok (.ok (), start)

/-- The replica that `SetUp` describes. -/
def Settings.start? (settings : Settings) (participants : SortedSet String)
    (config : Config RoundKind) : Option OracleReplica :=
  match settings.machine participants config with
  | .error _ => none
  | .ok machine =>
    match (Replica.ofMachine machine).setup with
    | .ok (.ok (), start) => some start
    | _ => none

theorem setUp_of_start? {settings : Settings} {participants : SortedSet String}
    {config : Config RoundKind} {start : OracleReplica}
    (h : settings.start? participants config = some start) :
    SetUp settings participants config start := by
  unfold Settings.start? at h
  cases hmachine : settings.machine participants config with
  | error e =>
    simp only [hmachine] at h
    cases h
  | ok machine =>
    simp only [hmachine] at h
    split at h
    case h_1 begun hsetup =>
      cases h
      exact ⟨machine, hmachine, hsetup⟩
    case h_2 => cases h

theorem SetUp.unique {settings : Settings} {participants : SortedSet String}
    {config : Config RoundKind} {first second : OracleReplica}
    (hfirst : SetUp settings participants config first)
    (hsecond : SetUp settings participants config second) : first = second := by
  obtain ⟨machine, hmachine, hsetup⟩ := hfirst
  obtain ⟨other, hother, hsetup'⟩ := hsecond
  rw [hmachine] at hother
  cases hother
  rw [hsetup] at hsetup'
  cases hsetup'
  rfl

/-- Nothing is in progress yet, and nothing has been committed. -/
theorem SetUp.eq_ofMachine {settings : Settings} {participants : SortedSet String}
    {config : Config RoundKind} {start : OracleReplica}
    (h : SetUp settings participants config start) : start = Replica.ofMachine start.machine := by
  obtain ⟨machine, _, hsetup⟩ := h
  obtain ⟨⟨_, _⟩, _, heq⟩ := Checked.bind_eq_ok_iff.1 hsetup
  cases heq
  rfl

/-! ## Replicas to look at -/

/-- A run that starts when a replica has been set up. -/
theorem exists_after {settings : Settings} {participants : SortedSet String}
    {config : Config RoundKind} {α β : Type} {run : OracleReplica → Checked α} {see : α → β} {seen : β}
    (h : (settings.start? participants config).map (fun start => (run start).map see) =
      some (.ok seen)) :
    ∃ start result, SetUp settings participants config start ∧ run start = .ok result ∧
      see result = seen := by
  obtain ⟨start, result, hstart, hresult, hseen⟩ := Checked.exists_of_map h
  exact ⟨start, result, setUp_of_start? hstart, hresult, hseen⟩

/-- A run that starts before the setup, when there is only the machine. -/
theorem exists_machine_after {settings : Settings} {participants : SortedSet String}
    {config : Config RoundKind} {α β : Type} {run : OracleMachine → Checked α} {see : α → β} {seen : β}
    (h : (settings.machine participants config).toOption.map (fun start => (run start).map see) =
      some (.ok seen)) :
    ∃ start result, settings.machine participants config = .ok start ∧ run start = .ok result ∧
      see result = seen := by
  obtain ⟨start, result, hstart, hresult, hseen⟩ := Checked.exists_of_map h
  exact ⟨start, result, Checked.eq_ok_of_toOption hstart, hresult, hseen⟩

/-- Four participants, three of whom decide. -/
def fourAddresses : SortedSet String := .ofList ["a", "b", "c", "d"]

def fourConfig : Config RoundKind := .ofParams Ballot.fourParticipants.params

def sent (sender : String) (payload : Payload) : List UInt8 :=
  Wire.write (⟨sender, payload⟩ : Transaction Payload)

/-- A block in which each of the senders sends the payload. -/
def blockFrom (height : UInt64) (senders : List String) (payload : Payload) : Block :=
  ⟨⟨height, .ofSeconds height⟩, senders.map (sent · payload)⟩

/-- All four register, and then three of them observe that one is the price. -/
def untilEstimates : List Block :=
  [blockFrom 1 ["a", "b", "c", "d"] .registration,
    blockFrom 2 ["a", "b", "c"] (.observation ⟨0x3ff0000000000000⟩)]

/-- Five seconds are seen, and then all four register. -/
def registeringCalls : List (Machine.Call Event Payload) :=
  [.setup, .updateTime (.ofSeconds 5)] ++
    ["a", "b", "c", "d"].map (fun sender => .processTransaction ⟨sender, .registration⟩) ++
    [.endBlock]

/-- One participant, who decides alone. -/
def alone : SortedSet String := .singleton "a"

def aloneConfig : Config RoundKind := .ofParams ⟨1, by decide⟩

def registrationOfA : List UInt8 := sent "a" .registration

/-! ## Every outcome has a successor -/

namespace Round.Outcome
variable {depth : UInt64} {poll : Poll Kind} {taken : List (Transaction Payload)}
  {kind : RoundKind} {event : Event} {store : Store}

theorem exists_next (h : Outcome depth poll taken kind event store) :
    ∃ next, transitions.next? kind event = some next := by
  cases h with
  | @noMajority kind hkind =>
    cases kind with
    | registration => exact absurd rfl hkind
    | collectObservation => exact ⟨.reset, rfl⟩
    | estimateConsensus => exact ⟨.reset, rfl⟩
    | reset => exact ⟨.registration, rfl⟩
  | registered => exact ⟨.collectObservation, rfl⟩
  | observed => exact ⟨.estimateConsensus, rfl⟩
  | estimated => exact ⟨.reset, rfl⟩
  | reset => exact ⟨.collectObservation, rfl⟩

/-- Registration writes the senders, who are all the participants, and every other round keeps the
participants that it found. -/
theorem participants_eq (h : Outcome depth poll taken kind event store) (htook : poll.Took taken)
    (hfound : poll.store.participants = .ok poll.participants) :
    store.participants = .ok poll.participants := by
  have hkeep : ∀ key value, participantsKey ≠ key →
      (poll.store.update [(key, value)]).participants = .ok poll.participants := by
    intro key value hkey
    rw [← hfound]
    apply Store.participants_congr
    rw [Store.get?_update, if_neg hkey]
  cases h with
  | noMajority => exact hfound
  | registered heveryone =>
    have hvalue := Store.get?_update poll.store participantsKey participantsKey
      (participantsValue (collected taken).keys)
    rw [if_pos rfl] at hvalue
    rw [Store.participants_of_value hvalue, SortedSet.ofList_keys (htook.domain_eq heveryone)]
  | observed => exact hkeep _ _ (by decide)
  | estimated => exact hkeep _ _ (by decide)
  | @reset opened hopen =>
    obtain ⟨value, hvalue⟩ := Store.exists_get?_of_participants hfound
    have hsame : (opened.cleanup depth.toNat none).get? participantsKey =
        poll.store.get? participantsKey := by
      rw [Store.get?_cleanup, hvalue]
      exact Store.get?_create hopen (by simp [crossPeriodKeys]) hvalue
    exact (Store.participants_congr hsame).trans hfound

end Round.Outcome

/-! ## The machine in a round -/

structure Running (settings : Settings) (config : Config RoundKind) (current : RoundKind × Poll Kind)
    (taken : List (Transaction Payload)) (machine : OracleMachine) : Prop where
  app_eq : machine.app = settings.application
  config_eq : machine.config = config
  params_eq : current.2.params = config.params
  allowed_eq : current.2.allowed = current.1.allowed
  participants_eq : current.2.store.participants = .ok current.2.participants
  round : ∃ round, machine.current = some (current.1, round) ∧
    round.Took settings.periodHistoryDepth current.2 (config.requiredConfirmations current.1) taken
      current.1
  timeouts : machine.timeouts.Among (settings.application.timeoutEvents current.1)

variable {settings : Settings} {config : Config RoundKind} {machine after : OracleMachine}

/-- A round that asks these participants. -/
theorem build_eq {store : Store} {participants : SortedSet String}
    (happ : machine.app = settings.application)
    (hparticipants : store.participants = .ok participants) (kind : RoundKind) :
    machine.build kind store = .ok (Round.opened settings.periodHistoryDepth
      (machine.config.requiredConfirmations kind) (Round.pollOf kind ⟨store, machine.config.params,
        machine.registry, machine.config.requiredConfirmations kind⟩ participants) kind) := by
  have hcontext : (RoundContext.mk store machine.config.params machine.registry
      (machine.config.requiredConfirmations kind)).store.participants = .ok participants :=
    hparticipants
  rw [Machine.build, happ]
  exact Round.buildRound_eq hcontext settings.periodHistoryDepth kind

theorem exists_build {store : Store} {participants : SortedSet String}
    (happ : machine.app = settings.application)
    (hparticipants : store.participants = .ok participants) (kind : RoundKind) :
    ∃ round poll, machine.build kind store = .ok round ∧
      poll = Round.pollOf kind ⟨store, machine.config.params, machine.registry,
        machine.config.requiredConfirmations kind⟩ participants ∧
      round.Took settings.periodHistoryDepth poll (machine.config.requiredConfirmations kind) []
        kind :=
  ⟨_, _, build_eq happ hparticipants kind, rfl, Round.took_opened _ _ _ kind⟩

theorem ne_done_of_mem_timeoutEvents {kind : RoundKind} {event : Event}
    (h : event ∈ settings.application.timeoutEvents kind) : event ≠ .done := by
  rintro rfl
  have htimed := (Application.mem_timeoutEvents.1 h).2
  have huntimed : settings.application.timeouts.contains .done = false := rfl
  rw [huntimed] at htimed
  cases htimed

namespace Running
variable {current : RoundKind × Poll Kind} {taken : List (Transaction Payload)}

theorem store_eq (h : Running settings config current taken machine) :
    machine.store = current.2.store := by
  obtain ⟨round, hcurrent, htook⟩ := h.round
  rw [Machine.store_of_current hcurrent]
  exact htook.store_eq

theorem transitions_eq (h : Running settings config current taken machine) :
    machine.app.transitions = transitions := by
  rw [h.app_eq]
  rfl

/-- The next round begins with the store that it is handed. -/
theorem fire {event : Event} {result : Option Store} {next : RoundKind}
    {participants : SortedSet String} {answer : Except Error (Option Event)}
    (h : Running settings config current taken machine)
    (hfire : machine.fire event result = .ok (answer, after))
    (hnext : transitions.next? current.1 event = some next)
    (hparticipants : (result.getD current.2.store).participants = .ok participants) :
    answer = .ok (some event) ∧ ∃ poll, poll.store = result.getD current.2.store ∧
      Running settings config (next, poll) [] after := by
  obtain ⟨round, hcurrent, htook⟩ := h.round
  have hstore : RoundBehavior.store round = current.2.store := htook.store_eq
  obtain ⟨successor, poll, hbuild, hpoll, hsuccessor⟩ := exists_build h.app_eq hparticipants next
  rw [← h.transitions_eq] at hnext
  rw [← hstore] at hbuild
  obtain ⟨hanswer, height, timeouts, awaitsTime, _, hamong, rfl⟩ :=
    Machine.fire_eq_ok hcurrent hnext hbuild hfire
  rw [h.app_eq] at hamong
  rw [h.config_eq] at hpoll hsuccessor
  refine ⟨hanswer, poll, by rw [hpoll, Round.pollOf], h.app_eq, h.config_eq, ?_, ?_, ?_,
    ⟨successor, rfl, hsuccessor⟩, hamong⟩
  · rw [hpoll, Round.pollOf]
  · rw [hpoll, Round.pollOf]
  · rw [hpoll]
    exact hparticipants

/-- A timeout that fires has an edge. -/
theorem updateTime_cases {now : Duration} {answer : Except Error (Option Event)}
    (h : Running settings config current taken machine)
    (htime : machine.updateTime now = .ok (answer, after)) :
    answer = .ok none ∧ Running settings config current taken after ∨
      ∃ event next, answer = .ok (some event) ∧
        event ∈ settings.application.timeoutEvents current.1 ∧
        transitions.next? current.1 event = some next.1 ∧ next.2.store = current.2.store ∧
        Running settings config next [] after := by
  obtain ⟨round, hcurrent, htook⟩ := h.round
  have hpending := h.timeouts
  rw [← h.app_eq] at hpending
  obtain ⟨timeouts, hamong, hcases⟩ := Machine.updateTime_eq_ok hcurrent hpending htime
  rw [h.app_eq] at hamong
  have hstamped : Running settings config current taken { machine with
      timeouts := timeouts, awaitsTime := false, lastTimestamp := some now } :=
    ⟨h.app_eq, h.config_eq, h.params_eq, h.allowed_eq, h.participants_eq, h.round, hamong⟩
  rcases hcases with ⟨hanswer, rfl⟩ | ⟨event, hevent, hfire⟩
  · exact .inl ⟨hanswer, hstamped⟩
  · rw [h.app_eq] at hevent
    obtain ⟨next, hnext⟩ := (Application.mem_timeoutEvents.1 hevent).1
    obtain ⟨hanswer, poll, hpoll, hrunning⟩ := hstamped.fire hfire hnext h.participants_eq
    exact .inr ⟨event, (next, poll), hanswer, hevent, hnext, hpoll, hrunning⟩

theorem updateTime {now : Duration} {answer : Except Error (Option Event)}
    (h : Running settings config current taken machine)
    (htime : machine.updateTime now = .ok (answer, after)) :
    answer = .ok none ∧ Running settings config current taken after ∨
      ∃ event next, answer = .ok (some event) ∧ event ≠ .done ∧
        next.2.store = current.2.store ∧ Running settings config next [] after := by
  rcases h.updateTime_cases htime with hstays | ⟨event, next, hanswer, hevent, _, hmoves⟩
  · exact .inl hstays
  · exact .inr ⟨event, next, hanswer, ne_done_of_mem_timeoutEvents hevent, hmoves⟩

theorem processTransaction {tx : Transaction Payload} {answer : Except Error Unit}
    (h : Running settings config current taken machine)
    (hcheck : machine.checkTransaction tx = .ok (.ok ()))
    (hprocess : machine.processTransaction tx = .ok (answer, after)) :
    answer = .ok () ∧ Running settings config current (taken ++ [tx]) after := by
  obtain ⟨round, hcurrent, htook⟩ := h.round
  have hpass := Machine.checkTransaction_eq_ok hcurrent hcheck
  obtain ⟨taken', moved, hmoved, rfl, rfl⟩ := Machine.processTransaction_eq_ok hcurrent hprocess
  obtain ⟨rfl, hafter⟩ := htook.process hpass hmoved
  exact ⟨rfl, h.app_eq, h.config_eq, h.params_eq, h.allowed_eq, h.participants_eq,
    ⟨moved, rfl, hafter⟩, h.timeouts⟩

/-- The round that has been asked, what it has answered, and the round that follows. -/
theorem endBlock_cases {answer : Except Error (Option Event)}
    (h : Running settings config current taken machine)
    (hend : machine.endBlock = .ok (answer, after)) :
    ∃ round asked outcome, machine.current = some (current.1, round) ∧
      round.endBlock = .ok (outcome, asked) ∧
      (outcome = none ∧ answer = .ok none ∧ Running settings config current taken after ∨
        ∃ event next, outcome = some (next.2.store, event) ∧ answer = .ok (some event) ∧
          transitions.next? current.1 event = some next.1 ∧
          Round.Outcome settings.periodHistoryDepth current.2 taken current.1 event next.2.store ∧
          Running settings config next [] after) := by
  obtain ⟨round, hcurrent, htook⟩ := h.round
  obtain ⟨outcome, asked, hasked, hcases⟩ := Machine.endBlock_eq_ok hcurrent hend
  obtain ⟨hkept, houtcome⟩ := htook.endBlock h.allowed_eq hasked
  have hrunning : Running settings config current taken
      { machine with current := some (current.1, asked) } :=
    ⟨h.app_eq, h.config_eq, h.params_eq, h.allowed_eq, h.participants_eq, ⟨asked, rfl, hkept⟩,
      h.timeouts⟩
  refine ⟨round, asked, outcome, hcurrent, hasked, ?_⟩
  rcases hcases with ⟨hnone, hanswer, rfl⟩ | ⟨store, event, heq, hfire⟩
  · exact .inl ⟨hnone, hanswer, hrunning⟩
  · have hresult := houtcome store event heq
    obtain ⟨next, hnext⟩ := hresult.exists_next
    have hparticipants := hresult.participants_eq htook.poll_took h.participants_eq
    obtain ⟨hanswer, poll, hpoll, hnew⟩ := hrunning.fire hfire hnext hparticipants
    rw [Option.getD_some] at hpoll
    refine .inr ⟨event, (next, poll), ?_, hanswer, hnext, ?_, hnew⟩
    · rw [heq, hpoll]
    · rw [hpoll]
      exact hresult

theorem endBlock {answer : Except Error (Option Event)}
    (h : Running settings config current taken machine)
    (hend : machine.endBlock = .ok (answer, after)) :
    answer = .ok none ∧ Running settings config current taken after ∨
      ∃ event next, answer = .ok (some event) ∧
        Round.Outcome settings.periodHistoryDepth current.2 taken current.1 event next.2.store ∧
        Running settings config next [] after := by
  obtain ⟨_, _, _, _, _, ⟨_, hanswer, hsame⟩ | ⟨event, next, _, hanswer, _, hresult, hnew⟩⟩ :=
    h.endBlock_cases hend
  · exact .inl ⟨hanswer, hsame⟩
  · exact .inr ⟨event, next, hanswer, hresult, hnew⟩

end Running

theorem tracks (settings : Settings) (config : Config RoundKind) :
    Machine.Tracks (Running settings config) where
  updateTime := by
    intro current taken machine now answer after h htime
    rcases h.updateTime htime with ⟨hanswer, hsame⟩ | ⟨event, next, hanswer, _, _, hnew⟩
    · exact ⟨none, hanswer, .stays hsame⟩
    · exact ⟨some event, hanswer, .moves hnew⟩
  processTransaction := fun h hcheck hprocess => h.processTransaction hcheck hprocess
  endBlock := by
    intro current taken machine answer after h hend
    rcases h.endBlock hend with ⟨hanswer, hsame⟩ | ⟨event, next, hanswer, _, hnew⟩
    · exact ⟨none, hanswer, .stays hsame⟩
    · exact ⟨some event, hanswer, .moves hnew⟩

/-! ## A replica that has been set up -/

theorem participants_ofSetup (participants : SortedSet String) :
    (Store.ofSetup (Settings.setupData participants.toList)).participants =
      .ok (SortedSet.ofList participants.toList) := by
  apply Store.participants_of_value
  rw [Store.get?_ofSetup, Settings.setupData, SortedMap.get?_insert, if_pos rfl]

theorem ofApplication_of_machine {participants : SortedSet String}
    (h : settings.machine participants config = .ok machine) :
    ∃ shapes, Machine.ofApplication settings.application (Settings.setupData participants.toList)
      config shapes = .ok machine := by
  rw [Settings.machine] at h
  cases hregistry : registry with
  | error e =>
    rw [hregistry] at h
    cases h
  | ok shapes =>
    rw [hregistry] at h
    exact ⟨shapes, h⟩

theorem machine_eq {participants : SortedSet String}
    (h : settings.machine participants config = .ok machine) :
    machine.app = settings.application ∧ machine.config = config ∧
      machine.lastTimestamp = none ∧ machine.setupStore.participants = .ok participants ∧
      participants.size ≤ config.params.maxParticipants.toNat := by
  obtain ⟨shapes, h⟩ := ofApplication_of_machine h
  have hstore := participants_ofSetup participants
  rw [SortedSet.ofList_toList] at hstore
  have hsize := Machine.size_le_of_ofApplication h hstore
  rw [Machine.ofApplication_eq_ok h]
  exact ⟨rfl, rfl, rfl, hstore, hsize⟩

/-- Setting a machine up does not fail. -/
theorem exists_setUp {participants : SortedSet String}
    (h : settings.machine participants config = .ok machine) :
    ∃ start, (Replica.ofMachine machine).setup = .ok (.ok (), start) := by
  obtain ⟨happ, _, hlast, hstore, _⟩ := machine_eq h
  obtain ⟨round, _, hbuild, _⟩ := exists_build happ hstore machine.app.initial
  obtain ⟨after, hsetup⟩ := Machine.exists_setup hlast hbuild
  exact ⟨_, by rw [Replica.setup, Replica.ofMachine, hsetup]; rfl⟩

/-- A setup asks the participants of the setup data. -/
theorem running_of_setup {participants : SortedSet String} {answer : Except Error Unit}
    (happ : machine.app = settings.application) (hconfig : machine.config = config)
    (hread : machine.setupStore.participants = .ok participants)
    (hsetup : machine.setup = .ok (answer, after)) :
    ∃ poll, Running settings config (.registration, poll) [] after ∧
      poll.participants = participants := by
  obtain ⟨round, poll, hbuild, hpoll, htook⟩ := exists_build happ hread machine.app.initial
  obtain ⟨_, timeouts, awaitsTime, hamong, rfl⟩ := Machine.setup_eq_ok hbuild hsetup
  have hinitial : machine.app.initial = .registration := by
    rw [happ]
    rfl
  rw [happ] at hamong
  rw [hconfig, hinitial] at hpoll htook
  refine ⟨poll, ⟨happ, hconfig, ?_, ?_, ?_, ⟨round, ?_, htook⟩, hamong⟩, ?_⟩
  · rw [hpoll, Round.pollOf]
  · rw [hpoll, Round.pollOf]
  · rw [hpoll]
    exact hread
  · rw [hinitial]
  · rw [hpoll, Round.pollOf]

theorem SetUp.running {participants : SortedSet String} {start : OracleReplica}
    (h : SetUp settings participants config start) :
    start.phase = .idle ∧ start.blocks = [] ∧
      ∃ current, Running settings config current [] start.machine ∧
        current.2.participants = participants := by
  obtain ⟨machine, hmachine, hsetup⟩ := h
  obtain ⟨⟨answer, entered⟩, henter, heq⟩ := Checked.bind_eq_ok_iff.1 hsetup
  obtain ⟨rfl, rfl⟩ := Prod.mk.inj (Except.ok.inj heq)
  obtain ⟨happ, hconfig, _, hstore, _⟩ := machine_eq hmachine
  obtain ⟨poll, hrunning, hsame⟩ := running_of_setup happ hconfig hstore henter
  exact ⟨rfl, rfl, (.registration, poll), hrunning, hsame⟩

end QuorumRounds.PriceOracle
