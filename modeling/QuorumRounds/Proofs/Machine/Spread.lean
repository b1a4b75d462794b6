import QuorumRounds.Machine.Spread
import QuorumRounds.Proofs.Machine.Steps

/-! # Fields that are kept in step

A call on a machine whose fields are spread out does what it does on the machine itself
(`Spreads.ask`), so the two answer alike however they are called (`spread_transcript`).

The fields are in step when a round is in progress exactly if there is a kind, and every kind that has
ended has its result (`SpreadMachine.InStep`). Those are the machines that have been spread out
(`SpreadMachine.inStep_iff`), so every call keeps them in step (`SpreadMachine.InStep.ask`). -/

namespace QuorumRounds
set_option autoImplicit false

namespace SpreadMachine
variable {ρ ε κ σ : Type} [Ord ρ] [Ord ε] [Ord κ] {fields : SpreadMachine ρ ε κ σ}

theorem setup_eq_error {e : Error}
    (hbuild : fields.cleared.build fields.app.initial fields.setupStore = .error e) :
    fields.setup = .ok (.error e, fields.cleared) := by
  rw [setup, hbuild]

theorem setup_eq_enter {round : σ}
    (hbuild : fields.cleared.build fields.app.initial fields.setupStore = .ok round) :
    fields.setup =
      (fields.cleared.enter fields.app.initial round).map fun entered => (.ok (), entered) := by
  rw [setup, hbuild]

end SpreadMachine

namespace Machine

open Checked (Both SameAnswer)

variable {ρ ε κ σ P : Type} [Ord ρ] [Ord ε] [Ord κ] {machine : Machine ρ ε κ σ}
  {fields : SpreadMachine ρ ε κ σ}

/-- The fields are those of the machine. -/
def Spreads (machine : Machine ρ ε κ σ) (fields : SpreadMachine ρ ε κ σ) : Prop :=
  fields = machine.spread

namespace Spreads

/-! ## Entering and leaving rounds -/

theorem scheduleTimeouts (h : Spreads machine fields) (now : Duration) :
    Both Spreads (machine.scheduleTimeouts now) (fields.scheduleTimeouts now) := by
  subst h
  rcases machine with ⟨app, config, registry, setupStore, lastStore, _ | ⟨kind, round⟩, height,
    history, timeouts, awaitsTime, lastTimestamp⟩
  · exact .ok rfl
  · refine Both.map (Both.of_eq (S := (· = ·)) rfl fun _ _ => rfl) ?_
    rintro _ _ rfl
    rfl

theorem enter (h : Spreads machine fields) (kind : ρ) (round : σ) :
    Both Spreads (machine.enter kind round) (fields.enter kind round) := by
  subst h
  have hentered : Spreads { machine with current := some (kind, round), timeouts := ∅ }
      { machine.spread with round := some round, kind := some kind, timeouts := ∅ } := rfl
  rcases machine with ⟨_, _, _, _, _, _, _, _, _, _, _ | now⟩
  · exact .ok rfl
  · exact hentered.scheduleTimeouts now

theorem leave (machine : Machine ρ ε κ σ) (kind : ρ) (store : Store) (height : UInt64) :
    Spreads { machine.leave kind store with height := height }
      { machine.spread with
        round := none
        kind := none
        height := height
        previousRounds := machine.previousRounds ++ [kind]
        roundResults := machine.roundResults ++ [store]
        lastStore := store
        timeouts := ∅ } := by
  simp only [Spreads, spread, Machine.leave, previousRounds, roundResults, List.map_append,
    List.map_cons, List.map_nil, currentRound, currentKind, Option.map_none]

/-- What is forgotten before the initial round is built is forgotten field by field. -/
theorem setup (h : Spreads machine fields) :
    Both (SameAnswer Spreads) machine.setup fields.setup := by
  subst h
  cases hbuild : machine.build machine.app.initial machine.setupStore with
  | error e =>
    have hfields : machine.spread.setup = .ok (.error e, machine.spread.cleared) :=
      SpreadMachine.setup_eq_error hbuild
    rw [setup_eq_error hbuild, hfields]
    exact .ok ⟨rfl, rfl⟩
  | ok round =>
    have hfields : machine.spread.setup = (machine.spread.cleared.enter machine.app.initial
        round).map fun entered => (.ok (), entered) := SpreadMachine.setup_eq_enter hbuild
    rw [setup_eq_enter hbuild, hfields]
    refine Both.map (enter rfl machine.app.initial round) ?_
    intro _ _ hentered
    exact ⟨rfl, hentered⟩

theorem cleanup (h : Spreads machine fields) (depth : Nat) :
    Spreads (machine.cleanup depth) (fields.cleanup depth) := by
  subst h
  simp only [Spreads, spread, Machine.cleanup, SpreadMachine.cleanup, previousRounds, roundResults,
    lastItems, List.map_drop, List.length_map]
  rfl

/-! ## Steps -/

section Rounds
variable [RoundBehavior σ P ε]

theorem processEvent (h : Spreads machine fields) (event : ε) (result : Option Store) :
    Both (SameAnswer Spreads) (machine.processEvent event result)
      (fields.processEvent event result) := by
  subst h
  cases hcurrent : machine.current with
  | none =>
    have hkind : machine.spread.kind = none := by rw [spread, currentKind, hcurrent, Option.map_none]
    simp only [Machine.processEvent, SpreadMachine.processEvent, hcurrent, hkind]
    exact .ok ⟨rfl, rfl⟩
  | some entry =>
    obtain ⟨kind, round⟩ := entry
    have hkind : machine.spread.kind = some kind := by
      rw [spread, currentKind, hcurrent, Option.map_some]
    have hround : machine.spread.round = some round := by
      rw [spread, currentRound, hcurrent, Option.map_some]
    have hleave := leave machine kind (result.getD (RoundBehavior.store round))
    have hnext : ∀ event, machine.spread.app.transitions.next? kind event =
        machine.app.transitions.next? kind event := fun _ => rfl
    have hbuild : ∀ next store, machine.spread.build next store = machine.build next store :=
      fun _ _ => rfl
    simp only [Machine.processEvent, SpreadMachine.processEvent, hcurrent, hkind, hround, hnext,
      hbuild]
    cases machine.app.transitions.next? kind event with
    | none => exact .ok ⟨rfl, hleave machine.height⟩
    | some next =>
      dsimp only
      cases machine.build next (result.getD (RoundBehavior.store round)) with
      | error e =>
        dsimp only
        exact .ok ⟨rfl, rfl⟩
      | ok successor =>
        dsimp only
        apply Both.bind (Both.of_eq (S := (· = ·)) rfl fun _ _ => rfl)
        rintro height _ rfl
        -- the kind that has been left standing is overwritten by the next one
        apply Both.bind ((hleave height).enter next successor)
        intro _ _ hentered
        exact .ok ⟨rfl, hentered⟩

theorem fire (h : Spreads machine fields) (event : ε) (result : Option Store) :
    Both (SameAnswer Spreads) (machine.fire event result) (fields.fire event result) := by
  apply Both.bind (h.processEvent event result)
  rintro ⟨answer, after⟩ ⟨_, _⟩ ⟨rfl, hafter⟩
  exact .ok ⟨rfl, hafter⟩

theorem checkTransaction (h : Spreads machine fields) (tx : Transaction P) :
    machine.checkTransaction tx = fields.checkTransaction tx := by
  subst h
  rcases machine with ⟨_, _, _, _, _, _ | ⟨kind, round⟩, _, _, _, _, _⟩ <;> rfl

theorem processTransaction (h : Spreads machine fields) (tx : Transaction P) :
    Both (SameAnswer Spreads) (machine.processTransaction tx) (fields.processTransaction tx) := by
  subst h
  rcases machine with ⟨_, _, _, _, _, _ | ⟨kind, round⟩, _, _, _, _, _⟩
  · exact .ok ⟨rfl, rfl⟩
  · refine Both.bind (Both.of_eq (S := (· = ·)) rfl fun _ _ => rfl) ?_
    rintro ⟨taken, moved⟩ _ rfl
    exact .ok ⟨rfl, rfl⟩

theorem endBlock (h : Spreads machine fields) :
    Both (SameAnswer Spreads) machine.endBlock fields.endBlock := by
  subst h
  rcases machine with ⟨_, _, _, _, _, _ | ⟨kind, round⟩, _, _, _, _, _⟩
  · exact .ok ⟨rfl, rfl⟩
  · refine Both.bind (Both.of_eq (S := (· = ·)) rfl fun _ _ => rfl) ?_
    rintro ⟨outcome, asked⟩ _ rfl
    cases outcome with
    | none => exact .ok ⟨rfl, rfl⟩
    | some decided => exact fire rfl decided.2 (some decided.1)

theorem expire (h : Spreads machine fields) (now : Duration) :
    Both (SameAnswer Spreads) (machine.expire now) (fields.expire now) := by
  subst h
  have htimeouts : machine.spread.timeouts = machine.timeouts := rfl
  rw [Machine.expire, SpreadMachine.expire, htimeouts]
  cases machine.timeouts.popExpired now with
  | mk expired rest =>
    cases expired with
    | none => exact .ok ⟨rfl, rfl⟩
    | some entry => exact fire rfl entry.2 none

theorem updateTime (h : Spreads machine fields) (now : Duration) :
    Both (SameAnswer Spreads) (machine.updateTime now) (fields.updateTime now) := by
  subst h
  have hstamped : Spreads { machine with lastTimestamp := some now }
      { machine.spread with lastTimestamp := some now } := rfl
  rw [updateTime_eq, SpreadMachine.updateTime]
  change Both _ _ (if machine.awaitsTime then _ else _)
  split
  · exact Both.bind (hstamped.scheduleTimeouts now) fun _ _ hscheduled => hscheduled.expire now
  · exact hstamped.expire now

/-! ## Calls -/

theorem ask (h : Spreads machine fields) (call : Call ε P) :
    Both (SameAnswer Spreads) (machine.ask call) (fields.ask call) := by
  cases call with
  | setup =>
    refine Both.map h.setup ?_
    rintro ⟨answer, after⟩ ⟨_, _⟩ ⟨rfl, hafter⟩
    exact ⟨rfl, hafter⟩
  | processTransaction tx =>
    refine Both.map (h.processTransaction tx) ?_
    rintro ⟨answer, after⟩ ⟨_, _⟩ ⟨rfl, hafter⟩
    exact ⟨rfl, hafter⟩
  | processEvent event result =>
    refine Both.map (h.processEvent event result) ?_
    rintro ⟨answer, after⟩ ⟨_, _⟩ ⟨rfl, hafter⟩
    exact ⟨rfl, hafter⟩
  | endBlock => exact h.endBlock
  | updateTime now => exact h.updateTime now
  | cleanup depth => exact .ok ⟨rfl, h.cleanup depth⟩

theorem transcript (h : Spreads machine fields) (calls : List (Call ε P)) :
    Both (SameAnswer Spreads) (machine.transcript calls) (fields.transcript calls) := by
  induction calls generalizing machine fields with
  | nil => exact .ok ⟨rfl, h⟩
  | cons call calls ih =>
    apply Both.bind (h.ask call)
    rintro ⟨answer, next⟩ ⟨_, _⟩ ⟨rfl, hnext⟩
    apply Both.bind (ih hnext)
    rintro ⟨replies, last⟩ ⟨_, _⟩ ⟨rfl, hlast⟩
    exact .ok ⟨rfl, hlast⟩

end Rounds

end Spreads

/-- However it is called, the machine answers as it does with its fields spread out. -/
theorem spread_transcript [RoundBehavior σ P ε] (machine : Machine ρ ε κ σ)
    (calls : List (Call ε P)) :
    machine.spread.transcript calls =
      (machine.transcript calls).map fun (replies, last) => (replies, last.spread) :=
  (Spreads.transcript rfl calls).eq_map_of_sameAnswer

end Machine

/-! ## Fields that are in step -/

namespace SpreadMachine

open Machine (Call Spreads)

variable {ρ ε κ σ P : Type} [Ord ρ] [Ord ε] [Ord κ] {fields after : SpreadMachine ρ ε κ σ}

structure InStep (fields : SpreadMachine ρ ε κ σ) : Prop where
  active : fields.round.isSome = true ↔ fields.kind.isSome = true
  same_length : fields.previousRounds.length = fields.roundResults.length

theorem inStep_spread (machine : Machine ρ ε κ σ) : machine.spread.InStep where
  active := by simp [Machine.spread, Machine.currentRound, Machine.currentKind]
  same_length := by simp [Machine.spread, Machine.previousRounds, Machine.roundResults]

theorem inStep_iff : fields.InStep ↔ ∃ machine, Spreads machine fields := by
  constructor
  · rintro ⟨hactive, hlength⟩
    rcases fields with ⟨app, config, registry, setupStore, lastStore, round, kind, height,
      previousRounds, roundResults, timeouts, awaitsTime, lastTimestamp⟩
    have hkinds : (previousRounds.zip roundResults).map Prod.fst = previousRounds :=
      List.map_fst_zip (Nat.le_of_eq hlength)
    have hresults : (previousRounds.zip roundResults).map Prod.snd = roundResults :=
      List.map_snd_zip (Nat.le_of_eq hlength.symm)
    have hspreads : ∀ current : Option (ρ × σ), current.map (·.2) = round → current.map (·.1) = kind →
        Spreads ⟨app, config, registry, setupStore, lastStore, current, height,
          previousRounds.zip roundResults, timeouts, awaitsTime, lastTimestamp⟩
        ⟨app, config, registry, setupStore, lastStore, round, kind, height, previousRounds,
          roundResults, timeouts, awaitsTime, lastTimestamp⟩ := by
      rintro current rfl rfl
      simp only [Spreads, Machine.spread, Machine.currentRound, Machine.currentKind,
        Machine.previousRounds, Machine.roundResults, hkinds, hresults]
    cases round with
    | none =>
      cases kind with
      | none => exact ⟨_, hspreads none rfl rfl⟩
      | some kind => cases hactive.2 rfl
    | some round =>
      cases kind with
      | none => cases hactive.1 rfl
      | some kind => exact ⟨_, hspreads (some (kind, round)) rfl rfl⟩
  · rintro ⟨machine, rfl⟩
    exact inStep_spread machine

/-- Whatever is called, and whatever it answers, the fields stay in step. -/
theorem InStep.ask [RoundBehavior σ P ε] {call : Call ε P} {answer : Except Error (Option ε)}
    (h : fields.InStep) (hask : fields.ask call = .ok (answer, after)) : after.InStep := by
  obtain ⟨machine, hspreads⟩ := inStep_iff.1 h
  obtain ⟨⟨_, last⟩, _, _, hlast⟩ := (hspreads.ask call).symm.eq_ok hask
  exact inStep_iff.2 ⟨last, hlast⟩

end SpreadMachine

end QuorumRounds
