import QuorumRounds.Proofs.PriceOracle.Running
import QuorumRounds.Proofs.Replica.Invariant

/-! # The price oracle stays in service

A machine that has been accepted can be set up, and whatever is then called on its replica, a round
is active, every event that ends it leads to another one, and the participants stay those with which
the machine was made (`never_stops`).

The participants are carried along by every way out of a round (`serving_tracks`): a timeout hands on
the store as it is, a registration ends only when every participant has registered, and a new period
takes the participants over. -/

namespace QuorumRounds.PriceOracle
set_option autoImplicit false

variable {settings : Settings} {config : Config RoundKind} {participants : SortedSet String}

/-- The machine is in a round that asks these participants. -/
def Serving (settings : Settings) (config : Config RoundKind) (participants : SortedSet String)
    (current : RoundKind × Poll Kind) (taken : List (Transaction Payload))
    (machine : OracleMachine) : Prop :=
  Running settings config current taken machine ∧ current.2.participants = participants

/-- Another round can follow on the event, with the store that is handed on. -/
def Continues (machine : OracleMachine) (kind : RoundKind) (event : Event) (store : Store) : Prop :=
  ∃ next successor, machine.app.transitions.next? kind event = some next ∧
    machine.build next store = .ok successor

structure InService (participants : SortedSet String) (replica : OracleReplica) : Prop where
  active : replica.machine.isFinished = false
  participants_eq : replica.machine.store.participants = .ok participants
  asked : ∀ {kind round}, replica.machine.current = some (kind, round) →
    round.poll.participants = participants
  decided : ∀ {kind round store event after}, replica.machine.current = some (kind, round) →
    round.endBlock = .ok (some (store, event), after) →
    Continues replica.machine kind event store
  expired : ∀ {kind round now event after}, replica.machine.current = some (kind, round) →
    replica.machine.updateTime now = .ok (.ok (some event), after) →
    Continues replica.machine kind event replica.machine.store
  beginBlock_refusal : ∀ {header e after}, replica.beginBlock header = .ok (.error e, after) →
    replica.phase ≠ .idle ∧ e = .requestNotAllowed .beginBlock replica.phase.stage ∨
      replica.phase = .idle ∧ Word.succ replica.height ≠ .ok header.height ∧
        e = .heightDoesNotFollow header.height replica.height
  endBlock_refusal : ∀ {e after}, replica.endBlock = .ok (.error e, after) →
    (∀ block, replica.phase ≠ .delivering block) ∧
      e = .requestNotAllowed .endBlock replica.phase.stage

/-! ## The participants are carried along -/

theorem serving_of_participants {current : RoundKind × Poll Kind}
    {taken : List (Transaction Payload)} {machine : OracleMachine}
    (h : Running settings config current taken machine)
    (hparticipants : current.2.store.participants = .ok participants) :
    Serving settings config participants current taken machine := by
  refine ⟨h, ?_⟩
  rw [h.participants_eq] at hparticipants
  exact Except.ok.inj hparticipants

theorem serving_tracks (settings : Settings) (config : Config RoundKind)
    (participants : SortedSet String) :
    Machine.Tracks (Serving settings config participants) where
  updateTime := by
    rintro current taken machine now answer after ⟨h, rfl⟩ htime
    rcases h.updateTime htime with ⟨hanswer, hsame⟩ | ⟨event, next, hanswer, _, hstore, hnew⟩
    · exact ⟨none, hanswer, .stays ⟨hsame, rfl⟩⟩
    · have hkept : next.2.store.participants = .ok current.2.participants := by
        rw [hstore]
        exact h.participants_eq
      exact ⟨some event, hanswer, .moves (serving_of_participants hnew hkept)⟩
  processTransaction := by
    rintro current taken machine tx answer after ⟨h, hsame⟩ hcheck hprocess
    obtain ⟨hanswer, hafter⟩ := h.processTransaction hcheck hprocess
    exact ⟨hanswer, hafter, hsame⟩
  endBlock := by
    rintro current taken machine answer after ⟨h, rfl⟩ hend
    rcases h.endBlock hend with ⟨hanswer, hsame⟩ | ⟨event, next, hanswer, hresult, hnew⟩
    · exact ⟨none, hanswer, .stays ⟨hsame, rfl⟩⟩
    · obtain ⟨_, _, htook⟩ := h.round
      have hkept := hresult.participants_eq htook.poll_took h.participants_eq
      exact ⟨some event, hanswer, .moves (serving_of_participants hnew hkept)⟩

/-! ## Another round always follows -/

namespace Serving
variable {current : RoundKind × Poll Kind} {taken : List (Transaction Payload)}
  {machine : OracleMachine}

theorem continues {event : Event} {store : Store} {next : RoundKind} {found : SortedSet String}
    (h : Serving settings config participants current taken machine)
    (hnext : transitions.next? current.1 event = some next)
    (hfound : store.participants = .ok found) : Continues machine current.1 event store := by
  obtain ⟨successor, _, hbuild, _⟩ := exists_build h.1.app_eq hfound next
  rw [← h.1.transitions_eq] at hnext
  exact ⟨next, successor, hnext, hbuild⟩

theorem decided {round after : Round} {store : Store} {event : Event}
    (h : Serving settings config participants current taken machine)
    (hcurrent : machine.current = some (current.1, round))
    (hend : round.endBlock = .ok (some (store, event), after)) :
    Continues machine current.1 event store := by
  obtain ⟨round', hcurrent', htook⟩ := h.1.round
  rw [hcurrent] at hcurrent'
  cases hcurrent'
  have hresult := (htook.endBlock h.1.allowed_eq hend).2 store event rfl
  obtain ⟨next, hnext⟩ := hresult.exists_next
  exact h.continues hnext (hresult.participants_eq htook.poll_took h.1.participants_eq)

theorem expired {now : Duration} {event : Event} {after : OracleMachine}
    (h : Serving settings config participants current taken machine)
    (htime : machine.updateTime now = .ok (.ok (some event), after)) :
    Continues machine current.1 event machine.store := by
  rcases h.1.updateTime_cases htime with ⟨hnone, _⟩ | ⟨fired, next, hsome, _, hnext, _⟩
  · cases hnone
  · cases hsome
    apply h.continues hnext
    rw [h.1.store_eq]
    exact h.1.participants_eq

end Serving

theorem inService_of_held {replica : OracleReplica}
    (h : Replica.Held (Serving settings config participants) replica) :
    InService participants replica := by
  obtain ⟨current, taken, hserving⟩ := h
  obtain ⟨round, hcurrent, htook⟩ := hserving.1.round
  have htracks := serving_tracks settings config participants
  refine ⟨?_, ?_, ?_, ?_, ?_, Replica.beginBlock_refusal htracks ⟨current, taken, hserving⟩,
    Replica.endBlock_refusal htracks ⟨current, taken, hserving⟩⟩
  · rw [Machine.isFinished, hcurrent]
    rfl
  · rw [hserving.1.store_eq, ← hserving.2]
    exact hserving.1.participants_eq
  · intro kind other hother
    rw [hcurrent] at hother
    cases hother
    rw [htook.poll_eq]
    exact hserving.2
  · intro kind other store event after hother hend
    rw [hcurrent] at hother
    cases hother
    exact hserving.decided hcurrent hend
  · intro kind other now event after hother htime
    rw [hcurrent] at hother
    cases hother
    exact hserving.expired htime

theorem never_stops {machine : OracleMachine}
    (h : settings.machine participants config = .ok machine) :
    participants.size ≤ config.params.maxParticipants.toNat ∧
      ∃ start, (Replica.ofMachine machine).setup = .ok (.ok (), start) ∧
        ∀ calls replica, start.run calls = .ok replica → InService participants replica := by
  obtain ⟨_, _, _, _, hsize⟩ := machine_eq h
  obtain ⟨start, hsetup⟩ := exists_setUp h
  refine ⟨hsize, start, hsetup, ?_⟩
  intro calls replica hrun
  obtain ⟨_, _, current, hrunning, hsame⟩ := SetUp.running ⟨machine, h, hsetup⟩
  have hstart : Replica.Held (Serving settings config participants) start :=
    ⟨current, [], hrunning, hsame⟩
  exact inService_of_held (hstart.run (serving_tracks settings config participants) hrun)

/-- The second block is aborted when its timeout has ended a round already. -/
def abortedCalls : List Replica.Call :=
  [.processBlock (blockFrom 1 ["a", "b", "c", "d"] .registration),
    .beginBlock ⟨2, .ofSeconds 40⟩, .endBlock, .abort, .beginBlock ⟨2, .ofSeconds 80⟩, .commit]

theorem never_stops_for_four :
    ∃ machine start replica, ({} : Settings).machine fourAddresses fourConfig = .ok machine ∧
      (Replica.ofMachine machine).setup = .ok (.ok (), start) ∧
      start.run abortedCalls = .ok replica ∧ replica.machine.currentKind = some .registration ∧
      replica.machine.height = 3 ∧ InService fourAddresses replica := by
  have hrun : (({} : Settings).start? fourAddresses fourConfig).map (fun start =>
      (start.run abortedCalls).map fun replica =>
        (replica.machine.currentKind, replica.machine.height)) =
      some (.ok (some .registration, 3)) := by decide +kernel
  obtain ⟨start, replica, ⟨machine, hmachine, hsetup⟩, hcalls, hseen⟩ := exists_after hrun
  obtain ⟨hkind, hheight⟩ := Prod.mk.inj hseen
  obtain ⟨_, start', hsetup', hservice⟩ := never_stops hmachine
  cases hsetup.symm.trans hsetup'
  exact ⟨machine, start, replica, hmachine, hsetup, hcalls, hkind, hheight, hservice _ _ hcalls⟩

end QuorumRounds.PriceOracle
