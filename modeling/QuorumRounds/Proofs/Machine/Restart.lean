import QuorumRounds.Proofs.Machine.Stopped
import QuorumRounds.Proofs.PriceOracle.Running

/-! # A setup starts all over

A machine that is set up again becomes the machine that it would be if nothing had been called on it
before but the last timestamp (`setup_starts_over`). It is the same machine, so no call tells the two
apart.

A setup forgets the history before it tries to build the initial round. That loses nothing: every
setup builds the same round from the same arguments, so one that fails has never succeeded, and
without a round nothing has ever been remembered (`Untouched`). -/

namespace QuorumRounds.Machine
set_option autoImplicit false

variable {ρ ε κ σ P : Type} [Ord ρ] [Ord ε] [Ord κ] {start machine after : Machine ρ ε κ σ}

/-! ## What calls never change -/

/-- The machines have been made with the same arguments. -/
structure SameArguments (start machine : Machine ρ ε κ σ) : Prop where
  app_eq : machine.app = start.app
  config_eq : machine.config = start.config
  registry_eq : machine.registry = start.registry
  setup_eq : machine.setupStore = start.setupStore

namespace SameArguments

theorem build_eq (h : SameArguments start machine) (kind : ρ) (store : Store) :
    machine.build kind store = start.build kind store := by
  rw [build, build, h.app_eq, h.config_eq, h.registry_eq]

theorem symm (h : SameArguments start machine) : SameArguments machine start :=
  ⟨h.app_eq.symm, h.config_eq.symm, h.registry_eq.symm, h.setup_eq.symm⟩

theorem trans (h : SameArguments start machine) (hafter : SameArguments machine after) :
    SameArguments start after where
  app_eq := hafter.app_eq.trans h.app_eq
  config_eq := hafter.config_eq.trans h.config_eq
  registry_eq := hafter.registry_eq.trans h.registry_eq
  setup_eq := hafter.setup_eq.trans h.setup_eq

theorem enter {kind : ρ} {round : σ} (henter : machine.enter kind round = .ok after) :
    SameArguments machine after := by
  obtain ⟨timeouts, awaitsTime, _, rfl⟩ := enter_eq_ok henter
  exact ⟨rfl, rfl, rfl, rfl⟩

variable [RoundBehavior σ P ε]

theorem eventOutcome {event : ε} {result : Option Store} {answer : Except Error Unit}
    (houtcome : EventOutcome machine event result answer after) : SameArguments machine after := by
  cases houtcome with
  | ignored | stopped | refused => exact ⟨rfl, rfl, rfl, rfl⟩
  | moved _ _ _ _ henter =>
    obtain ⟨happ, hconfig, hregistry, hsetup⟩ := enter henter
    exact ⟨happ, hconfig, hregistry, hsetup⟩

theorem outcome {call : Call ε P} {answer : Except Error (Option ε)}
    (houtcome : Outcome machine call answer after) : SameArguments machine after := by
  cases houtcome with
  | unbuilt | unheard | processed | unasked | undecided | stamped | cleaned =>
    exact ⟨rfl, rfl, rfl, rfl⟩
  | setUp _ henter =>
    obtain ⟨happ, hconfig, hregistry, hsetup⟩ := enter henter
    exact ⟨happ, hconfig, hregistry, hsetup⟩
  | event hevent => exact eventOutcome hevent
  | decided _ _ hevent | expired _ _ hevent =>
    obtain ⟨happ, hconfig, hregistry, hsetup⟩ := eventOutcome hevent
    exact ⟨happ, hconfig, hregistry, hsetup⟩

theorem call {call : Call ε P} {answer : Except Error Unit}
    (hcall : machine.call call = .ok (answer, after)) : SameArguments machine after := by
  obtain ⟨_, houtcome, _⟩ := call_outcome hcall
  exact outcome houtcome

theorem of_reachable (h : Reachable start machine) : SameArguments start machine := by
  induction h with
  | start => exact ⟨rfl, rfl, rfl, rfl⟩
  | called _ hcall ih => exact ih.trans (call hcall)

end SameArguments

/-! ## Machines that have not been in a round -/

structure Untouched (machine : Machine ρ ε κ σ) : Prop extends Stopped machine where
  awaits_eq : machine.awaitsTime = false
  height_eq : machine.height = 0
  history_eq : machine.history = []
  last_eq : machine.lastStore = machine.setupStore

namespace Untouched

theorem cleared_eq (h : machine.Untouched) : machine.cleared = machine := by
  obtain ⟨_, _, hheight, hhistory, hlast⟩ := h
  cases machine
  cases hheight
  cases hhistory
  cases hlast
  rfl

theorem onStopped (h : machine.Untouched) (call : Call ε P) : (call.onStopped machine).Untouched := by
  cases call with
  | setup | processTransaction | processEvent | endBlock => exact h
  | updateTime now => exact ⟨h.stamp now, rfl, h.height_eq, h.history_eq, h.last_eq⟩
  | cleanup depth =>
    refine ⟨h.cleanup depth, h.awaits_eq, h.height_eq, ?_, h.last_eq⟩
    change lastItems depth machine.history = []
    rw [h.history_eq, lastItems, List.drop_nil]

variable [RoundBehavior σ P ε]

/-- As long as the initial round cannot be built, no other round is entered either. -/
theorem call (h : machine.Untouched) {e : Error}
    (hbuild : machine.build machine.app.initial machine.setupStore = .error e) {call : Call ε P}
    {answer : Except Error Unit} (hcall : machine.call call = .ok (answer, after)) :
    after.Untouched := by
  by_cases hsetup : call = .setup
  · subst hsetup
    rw [Machine.call, setup_eq_error hbuild, h.cleared_eq] at hcall
    cases hcall
    exact h
  · have hafter := h.toStopped.call hsetup
    rw [hcall] at hafter
    cases hafter
    exact h.onStopped call

end Untouched

section Reached
variable [RoundBehavior σ P ε]

theorem untouched_of_ofApplication [Named ρ] {app : Application ρ ε κ σ}
    {setup : SortedMap String Value} {config : Config ρ} {registry : Registry κ}
    (hstart : ofApplication app setup config registry = .ok start) : start.Untouched := by
  rw [ofApplication_eq_ok hstart]
  exact ⟨⟨rfl, rfl⟩, rfl, rfl, rfl, rfl⟩

theorem untouched_of_reachable (hstart : start.Untouched) (h : Reachable start machine) {e : Error}
    (hbuild : machine.build machine.app.initial machine.setupStore = .error e) :
    machine.Untouched := by
  induction h with
  | start => exact hstart
  | @called machine after call answer hmachine hcall ih =>
    have hsame := SameArguments.call hcall
    have hbefore : machine.build machine.app.initial machine.setupStore = .error e := by
      rw [← hsame.build_eq, ← hsame.app_eq, ← hsame.setup_eq]
      exact hbuild
    exact (ih hbefore).call hbefore hcall

/-! ## The machine after a setup -/

omit [RoundBehavior σ P ε] in
/-- A round is entered whatever was going on before. -/
theorem enter_eq_enter {current : Option (ρ × σ)} {timeouts : Timeouts ε} {awaitsTime : Bool}
    (h : after = { machine with
      current := current, timeouts := timeouts, awaitsTime := awaitsTime })
    (kind : ρ) (round : σ) : after.enter kind round = machine.enter kind round := by
  rw [h, enter, enter]
  cases machine.lastTimestamp with
  | none => rfl
  | some now => rfl

omit [RoundBehavior σ P ε] in
theorem SameArguments.setup_eq_setup {other : Machine ρ ε κ σ} (h : SameArguments other machine)
    (hlast : machine.lastTimestamp = other.lastTimestamp) {round : σ}
    (hbuild : machine.build machine.app.initial machine.setupStore = .ok round) :
    machine.setup = other.setup := by
  have hother : other.build other.app.initial other.setupStore = .ok round := by
    rw [← h.build_eq, ← h.app_eq, ← h.setup_eq]
    exact hbuild
  have hcleared : machine.cleared = { other.cleared with
      current := machine.current
      timeouts := machine.timeouts
      awaitsTime := machine.awaitsTime } := by
    simp only [cleared, h.app_eq, h.config_eq, h.registry_eq, h.setup_eq, hlast]
  rw [setup_eq_enter hbuild, setup_eq_enter hother, h.app_eq, enter_eq_enter hcleared]

/-- A machine that has seen the timestamp, if any. -/
inductive Sees (start : Machine ρ ε κ σ) : Option Duration → Machine ρ ε κ σ → Prop where
  | nothing : Sees start none start
  | timestamp {now : Duration} {after : Machine ρ ε κ σ}
    (htime : start.updateTime now = .ok (.ok none, after)) : Sees start (some now) after

theorem Untouched.exists_sees (h : start.Untouched) (hnever : start.lastTimestamp = none)
    (last : Option Duration) :
    ∃ fresh, Sees start last fresh ∧ SameArguments start fresh ∧ fresh.lastTimestamp = last := by
  cases last with
  | none => exact ⟨start, .nothing, ⟨rfl, rfl, rfl, rfl⟩, hnever⟩
  | some now => exact ⟨_, .timestamp (h.updateTime now), ⟨rfl, rfl, rfl, rfl⟩, rfl⟩

/-- A setup that succeeds leaves the machine that a new one becomes when it sees the last timestamp
and is set up. A setup that fails changes nothing. -/
theorem setup_starts_over [Named ρ] {app : Application ρ ε κ σ} {setup : SortedMap String Value}
    {config : Config ρ} {registry : Registry κ}
    (hstart : ofApplication app setup config registry = .ok start)
    (hmachine : Reachable start machine) :
    ∃ fresh, Sees start machine.lastTimestamp fresh ∧
      (∀ after, machine.setup = .ok (.ok (), after) → fresh.setup = .ok (.ok (), after)) ∧
      ∀ e after, machine.setup = .ok (.error e, after) → after = machine := by
  have hnew := untouched_of_ofApplication hstart
  have hsame := SameArguments.of_reachable hmachine
  have hnever : start.lastTimestamp = none := by rw [ofApplication_eq_ok hstart]
  obtain ⟨fresh, hsees, hfresh, hlast⟩ := hnew.exists_sees hnever machine.lastTimestamp
  refine ⟨fresh, hsees, ?_⟩
  cases hbuild : machine.build machine.app.initial machine.setupStore with
  | error e =>
    rw [setup_eq_error hbuild]
    refine ⟨nofun, fun e after hsetup => ?_⟩
    cases hsetup
    exact (untouched_of_reachable hnew hmachine hbuild).cleared_eq
  | ok round =>
    have hsetup := (hfresh.symm.trans hsame).setup_eq_setup hlast.symm hbuild
    refine ⟨fun after hafter => hsetup.symm.trans hafter, fun e after hafter => ?_⟩
    rw [setup_eq_enter hbuild] at hafter
    obtain ⟨_, _, heq⟩ := Checked.map_eq_ok_iff.1 hafter
    cases heq

end Reached

section Four
open PriceOracle

set_option synthInstance.maxSize 1000 in
/-- The machine has gone on to the round in which prices are observed, and waits for its timeout. -/
theorem setup_starts_over_for_four :
    ∃ start machine fresh after : OracleMachine,
      ({} : Settings).machine fourAddresses fourConfig = .ok start ∧ Reachable start machine ∧
      machine.currentKind = some .collectObservation ∧ machine.timeouts.size = 1 ∧
      Sees start (some (.ofSeconds 5)) fresh ∧ machine.setup = .ok (.ok (), after) ∧
      fresh.setup = .ok (.ok (), after) ∧ after.timeouts.size = 0 := by
  have hrun : (({} : Settings).machine fourAddresses fourConfig).toOption.map (fun start =>
      (start.run registeringCalls).map fun machine =>
        (machine.currentKind, machine.lastTimestamp, machine.timeouts.size,
          machine.setup.map fun (answer, after) => (answer, after.timeouts.size))) =
      some (.ok (some .collectObservation, some (.ofSeconds 5), 1, .ok (.ok (), 0))) := by
    decide +kernel
  obtain ⟨start, machine, hstart, hcalls, hseen⟩ := exists_machine_after hrun
  simp only [Prod.mk.injEq] at hseen
  obtain ⟨hkind, hlast, hpending, hagain⟩ := hseen
  obtain ⟨⟨_, after⟩, hsetup, heq⟩ := Checked.map_eq_ok_iff.1 hagain
  obtain ⟨rfl, hnothing⟩ := Prod.mk.inj heq
  obtain ⟨shapes, hnew⟩ := ofApplication_of_machine hstart
  have hreachable : Reachable start machine := Reachable.start.run hcalls
  obtain ⟨fresh, hsees, hsame, _⟩ := setup_starts_over hnew hreachable
  rw [hlast] at hsees
  exact ⟨start, machine, fresh, after, hstart, hreachable, hkind, hpending, hsees, hsetup,
    hsame after hsetup, hnothing⟩

end Four

end QuorumRounds.Machine
