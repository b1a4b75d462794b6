import QuorumRounds.Proofs.Machine.Itinerary
import QuorumRounds.Proofs.Machine.Spread
import QuorumRounds.Proofs.PriceOracle.Sound

/-! # Round history

The theorem is about every application whose rounds keep their stores, and the price oracle is one. -/

namespace QuorumRounds.PriceOracle
set_option autoImplicit false

open Machine (Itinerary Reachable Recalls)

namespace Round
variable {round after : Round}

theorem poll_accept (round : Round) (tx : Transaction Payload) :
    (round.accept tx).poll = round.poll := by
  cases round <;> rfl

theorem store_of_build {depth : UInt64} {kind : RoundKind} {context : RoundContext Kind}
    (h : buildRound crossPeriodKeys depth kind context = .ok round) :
    round.store = context.store := by
  obtain ⟨participants, hread⟩ := exists_participants_of_build h
  rw [buildRound_eq hread] at h
  cases h
  cases kind <;> rfl

theorem store_of_process {tx : Transaction Payload} {answer : Except InternalError Unit}
    (h : round.process tx = .ok (answer, after)) : after.store = round.store := by
  rcases process_cases h with ⟨_, rfl⟩ | ⟨_, rfl⟩
  · rw [store, poll_accept, store]
  · rfl

/-- A decision counts blocks, and changes nothing else. -/
theorem store_of_endBlock {outcome : Option (Store × Event)}
    (h : round.endBlock = .ok (outcome, after)) : after.store = round.store := by
  cases round with
  | registration gathering =>
    obtain ⟨decision, asked, hdecide, _, rfl⟩ := handedOn_eq_ok .registration h
    obtain ⟨_, _, _, _, rfl, _⟩ := Gathering.decide_eq_ok hdecide
    rfl
  | collectObservation gathering =>
    obtain ⟨decision, asked, hdecide, _, rfl⟩ := handedOn_eq_ok .collectObservation h
    obtain ⟨_, _, _, _, rfl, _⟩ := Gathering.decide_eq_ok hdecide
    rfl
  | estimateConsensus ballot =>
    obtain ⟨decision, asked, hdecide, _, rfl⟩ := handedOn_eq_ok .estimateConsensus h
    obtain ⟨_, _, _, _, rfl, _⟩ := Ballot.decide_eq_ok hdecide
    rfl
  | reset ballot keys depth =>
    obtain ⟨decision, asked, hdecide, _, rfl⟩ := handedOn_eq_ok (.reset · keys depth) h
    obtain ⟨_, _, _, _, rfl, _⟩ := Ballot.decide_eq_ok hdecide
    rfl

end Round

theorem keepsStores (settings : Settings) : settings.application.KeepsStores := by
  intro store round h
  induction h with
  | built hbuild hstore => exact (Round.store_of_build hbuild).trans hstore
  | processed _ hprocess ih => exact (Round.store_of_process hprocess).trans ih
  | asked _ hend ih => exact (Round.store_of_endBlock hend).trans ih

/-- Whatever is called, and whether it succeeds or fails: the rounds that have ended and the current
one are a path from the initial round, as long as the height says, and the store is the last result.
The current round and its kind, and the rounds that have ended and their results, are kept in step also
as fields of their own. -/
theorem history_is_a_path :
    (∀ {ρ ε κ σ P : Type} [Ord ρ] [Ord ε] [Ord κ] [RoundBehavior σ P ε] [Named ρ]
      (app : Application ρ ε κ σ) (setup : SortedMap String Value) (config : Config ρ)
      (registry : Registry κ) (start : Machine ρ ε κ σ),
      Machine.ofApplication app setup config registry = .ok start → app.KeepsStores →
      (∀ machine, Reachable start machine → ∃ dropped, Recalls start machine dropped) ∧
      (∀ machine dropped, Recalls start machine dropped →
        Itinerary app (Store.ofSetup setup) machine dropped) ∧
      (∀ calls, start.spread.transcript calls =
        (start.transcript calls).map fun (replies, last) => (replies, last.spread)) ∧
      ∀ (fields after : SpreadMachine ρ ε κ σ) call answer, fields.InStep →
        fields.ask call = .ok (answer, after) → after.InStep) ∧
    ∀ settings : Settings, settings.application.KeepsStores := by
  refine ⟨?_, keepsStores⟩
  intro ρ ε κ σ P _ _ _ _ _ app setup config registry start hstart hkeeps
  have happ : start.app = app ∧ start.setupStore = Store.ofSetup setup := by
    rw [Machine.ofApplication_eq_ok hstart]
    exact ⟨rfl, rfl⟩
  refine ⟨fun machine hmachine => hmachine.recalls, fun machine dropped hrecalls => ?_,
    fun calls => Machine.spread_transcript start calls,
    fun fields after call answer hstep hask => hstep.ask hask⟩
  have hchronicle := hrecalls.chronicle hstart
  rw [← happ.1] at hkeeps
  rw [← happ.1, ← happ.2]
  exact hchronicle.itinerary hkeeps

/-- The first round is dropped, and the second one is left on an event that it has no edge for. -/
def stoppingCalls : List (Machine.Call Event Payload) :=
  registeringCalls ++ [.cleanup 0, .processEvent .resetTimeout none]

theorem history_is_a_path_to_a_stop :
    ∃ (start machine : OracleMachine) (dropped : List (RoundKind × Store)),
      ({} : Settings).machine fourAddresses fourConfig = .ok start ∧
      start.run stoppingCalls = .ok machine ∧
      Recalls start machine dropped ∧ dropped.map (·.1) = [.registration] ∧
      machine.previousRounds = [.collectObservation] ∧ machine.isFinished = true ∧
      machine.height = 1 ∧
      Itinerary ({} : Settings).application
        (Store.ofSetup (Settings.setupData fourAddresses.toList)) machine dropped := by
  have hrun : (({} : Settings).machine fourAddresses fourConfig).toOption.map (fun start =>
      (start.run stoppingCalls).map fun machine =>
        (machine.previousRounds, machine.isFinished, machine.height)) =
      some (.ok ([.collectObservation], true, 1)) := by
    decide +kernel
  obtain ⟨start, machine, hstart, hcalls, hseen⟩ := exists_machine_after hrun
  obtain ⟨hrounds, hseen⟩ := Prod.mk.inj hseen
  obtain ⟨hstopped, hheight⟩ := Prod.mk.inj hseen
  obtain ⟨shapes, hnew⟩ := ofApplication_of_machine hstart
  obtain ⟨hcovered, hkeeps, _⟩ :=
    history_is_a_path.1 _ _ _ _ _ hnew (history_is_a_path.2 {})
  obtain ⟨dropped, hrecalls⟩ := hcovered machine (Reachable.start.run hcalls)
  have hitinerary := hkeeps machine dropped hrecalls
  have hdropped : dropped.map (·.1) = [.registration] := by
    have hlength := hitinerary.stopped hstopped
      (List.append_ne_nil_of_right_ne_nil _ (by
        rintro hnone
        rw [Machine.previousRounds, hnone] at hrounds
        cases hrounds))
    rw [hheight, hrounds] at hlength
    obtain ⟨⟨kind, store⟩, rfl⟩ := List.length_eq_one_iff.1 (Nat.succ.inj hlength).symm
    rw [hitinerary.first kind rfl]
    rfl
  exact ⟨start, machine, dropped, hstart, hcalls, hrecalls, hdropped, hrounds, hstopped, hheight,
    hitinerary⟩

end QuorumRounds.PriceOracle
