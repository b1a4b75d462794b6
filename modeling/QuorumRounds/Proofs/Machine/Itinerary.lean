import Mathlib.Data.List.Chain
import QuorumRounds.Proofs.Machine.Calls

/-! # The rounds of a run are a path through the transition table

`Recalls start machine dropped` says that calls have led from `start` to the machine, and that
cleanups have dropped these rounds from its history since the last setup. With what the machine still
remembers they are all the rounds that have ended (`finished`).

* `Application.Stems`: the rounds that have been built from a store, and what calls have made of them.
* `Chronicle`: what every call keeps, also one that fails. A setup fails only on a machine that has
  never been in a round, since every setup builds the same round from the same store
  (`Chronicle.opens`).
* `Itinerary`: what follows for the history, the height and the store. -/

namespace QuorumRounds
set_option autoImplicit false

section Applications
variable {ρ ε κ σ P : Type} [Ord ρ] [Ord ε] [Ord κ] [RoundBehavior σ P ε]

omit [Ord κ] in
/-- One round follows the other on some event. -/
def TransitionTable.Follows (table : TransitionTable ρ ε) (kind next : ρ) : Prop :=
  ∃ event, table.next? kind event = some next

/-- A round that has been built from the store, whatever has been called on it since. -/
inductive Application.Stems (app : Application ρ ε κ σ) (store : Store) : σ → Prop where
  | built {kind : ρ} {context : RoundContext κ} {round : σ}
    (hbuild : app.build kind context = .ok round) (hstore : context.store = store) :
    Stems app store round
  | processed {round after : σ} {tx : Transaction P} {answer : Except InternalError Unit}
    (h : Stems app store round) (hprocess : RoundBehavior.process round tx = .ok (answer, after)) :
    Stems app store after
  | asked {round after : σ} {outcome : Option (Store × ε)} (h : Stems app store round)
    (hend : RoundBehavior.endBlock round = .ok (outcome, after)) : Stems app store after

/-- Rounds go on returning the store that they were built from. -/
def Application.KeepsStores (app : Application ρ ε κ σ) : Prop :=
  ∀ {store : Store} {round : σ}, app.Stems store round → RoundBehavior.store round = store

end Applications

namespace Machine
variable {ρ ε κ σ P : Type} [Ord ρ] [Ord ε] [Ord κ] [RoundBehavior σ P ε]
  {start machine after : Machine ρ ε κ σ} {dropped : List (ρ × Store)}

/-! ## What has been forgotten -/

/-- A setup starts all over, and a cleanup drops the oldest rounds. -/
def Call.forgotten (call : Call ε P) (machine : Machine ρ ε κ σ) (dropped : List (ρ × Store)) :
    List (ρ × Store) :=
  match call with
  | .setup => []
  | .cleanup depth => dropped ++ machine.history.take (machine.history.length - depth)
  | _ => dropped

inductive Recalls (start : Machine ρ ε κ σ) : Machine ρ ε κ σ → List (ρ × Store) → Prop where
  | start : Recalls start start []
  | called {machine after : Machine ρ ε κ σ} {dropped : List (ρ × Store)} {call : Call ε P}
    {answer : Except Error Unit} (hmachine : Recalls start machine dropped)
    (hcall : machine.call call = .ok (answer, after)) :
    Recalls start after (call.forgotten machine dropped)

theorem Reachable.recalls (h : Reachable start machine) : ∃ dropped, Recalls start machine dropped := by
  induction h with
  | start => exact ⟨[], .start⟩
  | called _ hcall ih =>
    obtain ⟨dropped, hmachine⟩ := ih
    exact ⟨_, .called hmachine hcall⟩

/-- The rounds that have ended since the last setup, with what each has handed on. -/
def finished (machine : Machine ρ ε κ σ) (dropped : List (ρ × Store)) : List (ρ × Store) :=
  dropped ++ machine.history

/-- The rounds since the last setup, with the current one. -/
def visited (machine : Machine ρ ε κ σ) (dropped : List (ρ × Store)) : List ρ :=
  (machine.finished dropped).map (·.1) ++ machine.currentKind.toList

/-- The store of the last round that has ended, or else the one that the machine was made with. -/
def lastResult (machine : Machine ρ ε κ σ) (dropped : List (ρ × Store)) : Store :=
  ((machine.finished dropped).getLast?.map (·.2)).getD machine.setupStore

omit [RoundBehavior σ P ε] in
theorem visited_of_current {kind : ρ} {round : σ} (hcurrent : machine.current = some (kind, round)) :
    machine.visited dropped = (machine.finished dropped).map (·.1) ++ [kind] := by
  rw [visited, currentKind_of_current hcurrent, Option.toList_some]

omit [RoundBehavior σ P ε] in
theorem finished_leave (machine : Machine ρ ε κ σ) (dropped : List (ρ × Store)) (kind : ρ)
    (store : Store) :
    (machine.leave kind store).finished dropped = machine.finished dropped ++ [(kind, store)] := by
  rw [finished, finished, List.append_assoc]
  rfl

omit [RoundBehavior σ P ε] in
/-- A round that ends goes over from the current one to those that have ended. -/
theorem visited_leave {kind : ρ} {round : σ} (hcurrent : machine.current = some (kind, round))
    (store : Store) : (machine.leave kind store).visited dropped = machine.visited dropped := by
  rw [visited_of_current hcurrent, visited, finished_leave, List.map_append]
  exact List.append_nil _

omit [RoundBehavior σ P ε] in
theorem visited_eq_nil_iff :
    machine.visited dropped = [] ↔ machine.finished dropped = [] ∧ machine.current = none := by
  rw [visited, List.append_eq_nil_iff, List.map_eq_nil_iff, Option.toList_eq_nil_iff, currentKind,
    Option.map_eq_none_iff]

/-! ## What every call keeps -/

structure Chronicle (start machine : Machine ρ ε κ σ) (dropped : List (ρ × Store)) : Prop where
  app_eq : machine.app = start.app
  setup_eq : machine.setupStore = start.setupStore
  path : (machine.visited dropped).IsChain machine.app.transitions.Follows
  first : ∀ kind, (machine.visited dropped).head? = some kind → kind = machine.app.initial
  running : machine.isFinished = false →
    machine.height.toNat = (machine.finished dropped).length
  stopped : machine.isFinished = true → machine.finished dropped ≠ [] →
    machine.height.toNat + 1 = (machine.finished dropped).length
  last_eq : machine.lastStore = machine.lastResult dropped
  stems : ∀ kind round, machine.current = some (kind, round) →
    machine.app.Stems machine.lastStore round
  /-- A machine that has been in a round can be set up again. -/
  opens : machine.visited dropped ≠ [] →
    ∃ round, machine.build machine.app.initial machine.setupStore = .ok round

namespace Chronicle

/-- Neither the rounds that have ended nor the kind of the current one have changed. -/
theorem same (h : Chronicle start machine dropped) (happ : after.app = machine.app)
    (hconfig : after.config = machine.config) (hregistry : after.registry = machine.registry)
    (hsetup : after.setupStore = machine.setupStore) (hlast : after.lastStore = machine.lastStore)
    (hheight : after.height = machine.height) (hhistory : after.history = machine.history)
    (hkind : after.currentKind = machine.currentKind)
    (hstems : ∀ kind round, after.current = some (kind, round) →
      after.app.Stems after.lastStore round) : Chronicle start after dropped := by
  have hfinished : after.finished dropped = machine.finished dropped := by
    rw [finished, finished, hhistory]
  have hvisited : after.visited dropped = machine.visited dropped := by
    rw [visited, visited, hfinished, hkind]
  have hactive : after.isFinished = machine.isFinished := by
    have hsome := congrArg Option.isNone hkind
    simpa [isFinished, currentKind] using hsome
  refine ⟨happ.trans h.app_eq, hsetup.trans h.setup_eq, ?_, ?_, ?_, ?_, ?_, hstems, ?_⟩
  · rw [hvisited, happ]
    exact h.path
  · rw [hvisited, happ]
    exact h.first
  · rw [hactive, hheight, hfinished]
    exact h.running
  · rw [hactive, hheight, hfinished]
    exact h.stopped
  · rw [hlast, lastResult, hfinished, hsetup]
    exact h.last_eq
  · rw [hvisited, build, happ, hconfig, hregistry, hsetup]
    exact h.opens

theorem height_eq_of_current {kind : ρ} {round : σ} (h : Chronicle start machine dropped)
    (hcurrent : machine.current = some (kind, round)) :
    machine.height.toNat = (machine.finished dropped).length := by
  apply h.running
  rw [isFinished, hcurrent]
  rfl

/-- The machine stops: its height stays, although one more round has ended. -/
theorem leave {kind : ρ} {round : σ} (h : Chronicle start machine dropped)
    (hcurrent : machine.current = some (kind, round)) (store : Store) :
    Chronicle start (machine.leave kind store) dropped := by
  have hvisited : (machine.leave kind store).visited dropped = machine.visited dropped :=
    visited_leave hcurrent store
  have hfinished := machine.finished_leave dropped kind store
  refine ⟨h.app_eq, h.setup_eq, hvisited ▸ h.path, hvisited ▸ h.first, nofun, ?_, ?_, nofun,
    hvisited ▸ h.opens⟩
  · intro _ _
    have hheight := h.height_eq_of_current hcurrent
    rw [hfinished, List.length_append]
    exact congrArg (· + 1) hheight
  · rw [lastResult, hfinished, List.getLast?_concat]
    rfl

/-- The machine moves on: the next round is visited behind the one that has ended. -/
theorem move {kind next : ρ} {round successor : σ} {store : Store} {height : UInt64}
    (h : Chronicle start machine dropped) (hcurrent : machine.current = some (kind, round))
    (hnext : machine.app.transitions.Follows kind next)
    (hbuild : machine.build next store = .ok successor)
    (hheight : Word.succ machine.height = .ok height)
    (henter : enter { machine.leave kind store with height := height } next successor =
      .ok after) : Chronicle start after dropped := by
  obtain ⟨timeouts, awaitsTime, _, rfl⟩ := enter_eq_ok henter
  have hleft : (machine.leave kind store).visited dropped = machine.visited dropped :=
    visited_leave hcurrent store
  have hfinished := machine.finished_leave dropped kind store
  have hpast : ((machine.leave kind store).finished dropped).map (·.1) = machine.visited dropped := by
    rw [← hleft]
    exact (List.append_nil _).symm
  have hsome : machine.visited dropped = (machine.finished dropped).map (·.1) ++ [kind] :=
    visited_of_current hcurrent
  refine ⟨h.app_eq, h.setup_eq, ?_, ?_, ?_, nofun, ?_, ?_, ?_⟩
  · rw [visited_of_current rfl]
    change List.IsChain _ (((machine.leave kind store).finished dropped).map (·.1) ++ [next])
    rw [hpast]
    refine h.path.append (.singleton next) ?_
    intro last hlast entered hentered
    rw [hsome, List.getLast?_concat] at hlast
    cases hlast
    cases hentered
    exact hnext
  · rw [visited_of_current rfl]
    change ∀ first, (((machine.leave kind store).finished dropped).map (·.1) ++ [next]).head? = _ → _
    rw [hpast]
    intro first hfirst
    apply h.first first
    rw [← hfirst, hsome]
    simp
  · intro _
    have hbefore := h.height_eq_of_current hcurrent
    have hafter := Word.succ_eq_ok_iff.1 hheight
    change height.toNat = ((machine.leave kind store).finished dropped).length
    rw [hfinished, List.length_append, List.length_singleton]
    omega
  · change store = (((machine.leave kind store).finished dropped).getLast?.map _).getD _
    rw [hfinished, List.getLast?_concat]
    rfl
  · intro kind' round' hcurrent'
    cases hcurrent'
    exact .built hbuild rfl
  · intro _
    apply h.opens
    rw [hsome]
    simp

theorem eventOutcome {event : ε} {result : Option Store} {answer : Except Error Unit}
    (h : Chronicle start machine dropped)
    (houtcome : EventOutcome machine event result answer after) : Chronicle start after dropped := by
  cases houtcome with
  | ignored => exact h
  | stopped hcurrent => exact h.leave hcurrent _
  | refused => exact h
  | moved hcurrent hnext hbuild hheight henter =>
    exact h.move hcurrent ⟨event, hnext⟩ hbuild hheight henter

/-- A machine that cannot be set up has never been in a round, so nothing is lost with its history. -/
theorem cleared (h : Chronicle start machine dropped)
    (hfails : ∀ round, machine.build machine.app.initial machine.setupStore ≠ .ok round)
    (happ : after.app = machine.app) (hsetup : after.setupStore = machine.setupStore)
    (hlast : after.lastStore = machine.setupStore)
    (hcurrent : after.current = machine.current) (hhistory : after.history = []) :
    Chronicle start after [] := by
  have hnone : machine.visited dropped = [] := by
    by_contra hsome
    obtain ⟨round, hbuild⟩ := h.opens hsome
    exact hfails round hbuild
  have hstopped : after.current = none := hcurrent.trans (visited_eq_nil_iff.1 hnone).2
  have hfinished : after.finished [] = [] := hhistory
  have hvisited : after.visited [] = [] := visited_eq_nil_iff.2 ⟨hfinished, hstopped⟩
  refine ⟨happ.trans h.app_eq, hsetup.trans h.setup_eq, ?_, ?_, ?_, ?_, ?_, ?_, ?_⟩
  · rw [hvisited]
    exact .nil
  · rw [hvisited]
    nofun
  · intro hactive
    rw [isFinished, hstopped] at hactive
    cases hactive
  · intro _ hsome
    exact absurd hfinished hsome
  · rw [hlast, lastResult, hfinished, hsetup]
    rfl
  · intro kind round hsome
    cases hstopped.symm.trans hsome
  · intro hsome
    exact absurd hvisited hsome

/-! ## Calls -/

theorem asked {kind : ρ} {round asked : σ} {outcome : Option (Store × ε)}
    (h : Chronicle start machine dropped) (hcurrent : machine.current = some (kind, round))
    (hasked : RoundBehavior.endBlock round = .ok (outcome, asked)) :
    Chronicle start { machine with current := some (kind, asked) } dropped := by
  refine h.same rfl rfl rfl rfl rfl rfl rfl (currentKind_of_current hcurrent).symm ?_
  intro kind round hround
  cases hround
  exact .asked (h.stems _ _ hcurrent) hasked

omit [RoundBehavior σ P ε] in
/-- What a cleanup drops is still counted. -/
theorem finished_cleanup (machine : Machine ρ ε κ σ) (dropped : List (ρ × Store)) (depth : Nat) :
    (machine.cleanup depth).finished
        (dropped ++ machine.history.take (machine.history.length - depth)) =
      machine.finished dropped := by
  rw [finished, finished, Machine.cleanup, lastItems, List.append_assoc, List.take_append_drop]

theorem cleanup (h : Chronicle start machine dropped) (depth : Nat) :
    Chronicle start (machine.cleanup depth)
      (dropped ++ machine.history.take (machine.history.length - depth)) := by
  have hfinished := finished_cleanup machine dropped depth
  have hvisited : (machine.cleanup depth).visited
      (dropped ++ machine.history.take (machine.history.length - depth)) =
        machine.visited dropped := by
    rw [visited, hfinished]
    rfl
  refine ⟨h.app_eq, h.setup_eq, ?_, ?_, ?_, ?_, ?_, h.stems, ?_⟩
  · rw [hvisited]
    exact h.path
  · rw [hvisited]
    exact h.first
  · rw [hfinished]
    exact h.running
  · rw [hfinished]
    exact h.stopped
  · rw [lastResult, hfinished]
    exact h.last_eq
  · rw [hvisited]
    exact h.opens

theorem outcome {call : Call ε P} {answer : Except Error (Option ε)}
    (h : Chronicle start machine dropped) (houtcome : Outcome machine call answer after) :
    Chronicle start after (call.forgotten machine dropped) := by
  cases houtcome with
  | unbuilt hfails =>
    -- a setup that fails has found no round to build, so there has never been one
    refine h.cleared ?_ rfl rfl rfl rfl rfl
    intro round
    rw [hfails]
    nofun
  | setUp hbuild henter =>
    obtain ⟨timeouts, awaitsTime, _, rfl⟩ := enter_eq_ok henter
    refine ⟨h.app_eq, h.setup_eq, .singleton _, ?_, fun _ => rfl, nofun, rfl, ?_,
      fun _ => ⟨_, hbuild⟩⟩
    · intro kind hkind
      exact (Option.some.inj hkind).symm
    · intro kind' round' hcurrent
      cases hcurrent
      exact .built hbuild rfl
  | unheard | unasked => exact h
  | processed hcurrent hprocess =>
    refine h.same rfl rfl rfl rfl rfl rfl rfl (currentKind_of_current hcurrent).symm ?_
    intro kind round hround
    cases hround
    exact .processed (h.stems _ _ hcurrent) hprocess
  | event hevent => exact h.eventOutcome hevent
  | undecided hcurrent hasked => exact h.asked hcurrent hasked
  | decided hcurrent hasked hevent => exact (h.asked hcurrent hasked).eventOutcome hevent
  | stamped => exact h.same rfl rfl rfl rfl rfl rfl rfl rfl h.stems
  | expired _ _ hevent =>
    refine eventOutcome ?_ hevent
    exact h.same rfl rfl rfl rfl rfl rfl rfl rfl h.stems
  | cleaned => exact h.cleanup _

/-- A machine that is in no round, and remembers none. -/
theorem ofApplication [Named ρ] {app : Application ρ ε κ σ} {setup : SortedMap String Value}
    {config : Config ρ} {registry : Registry κ}
    (h : Machine.ofApplication app setup config registry = .ok machine) :
    Chronicle machine machine [] := by
  rw [ofApplication_eq_ok h]
  exact ⟨rfl, rfl, .nil, nofun, nofun, fun _ hsome => absurd rfl hsome, rfl, nofun,
    fun hsome => absurd rfl hsome⟩

end Chronicle

theorem Recalls.chronicle [Named ρ] {app : Application ρ ε κ σ} {setup : SortedMap String Value}
    {config : Config ρ} {registry : Registry κ}
    (hstart : Machine.ofApplication app setup config registry = .ok start)
    (h : Recalls start machine dropped) : Chronicle start machine dropped := by
  induction h with
  | start => exact .ofApplication hstart
  | called _ hcall ih =>
    obtain ⟨_, houtcome, _⟩ := call_outcome hcall
    exact ih.outcome houtcome

/-! ## What follows -/

/-- What the history, the height and the store of a machine say about the rounds that it has been
in, when cleanups have dropped some of them. -/
structure Itinerary (app : Application ρ ε κ σ) (setup : Store) (machine : Machine ρ ε κ σ)
    (dropped : List (ρ × Store)) : Prop where
  active : machine.isFinished = false ↔ machine.currentKind.isSome = true
  same_length : machine.previousRounds.length = machine.roundResults.length
  path : (machine.previousRounds ++ machine.currentKind.toList).IsChain app.transitions.Follows
  running : machine.isFinished = false →
    machine.height.toNat = dropped.length + machine.previousRounds.length
  stopped : machine.isFinished = true → dropped ++ machine.history ≠ [] →
    machine.height.toNat + 1 = dropped.length + machine.previousRounds.length
  first : ∀ kind, (dropped.map (·.1) ++ machine.previousRounds ++
    machine.currentKind.toList).head? = some kind → kind = app.initial
  store_eq : machine.store = ((dropped ++ machine.history).getLast?.map (·.2)).getD setup

theorem Chronicle.itinerary (h : Chronicle start machine dropped)
    (hkeeps : start.app.KeepsStores) : Itinerary start.app start.setupStore machine dropped := by
  have hlength : (machine.finished dropped).length =
      dropped.length + machine.previousRounds.length := by
    rw [finished, List.length_append, previousRounds, List.length_map]
  have hvisited : machine.visited dropped =
      dropped.map (·.1) ++ machine.previousRounds ++ machine.currentKind.toList := by
    rw [visited, finished, List.map_append, previousRounds]
  refine ⟨?_, ?_, ?_, ?_, ?_, ?_, ?_⟩
  · simp [isFinished, currentKind]
  · rw [previousRounds, roundResults, List.length_map, List.length_map]
  · have hpath := h.path
    rw [h.app_eq, hvisited, List.append_assoc] at hpath
    exact hpath.right_of_append
  · rw [← hlength]
    exact h.running
  · rw [← hlength]
    exact h.stopped
  · rw [← hvisited, ← h.app_eq]
    exact h.first
  · have hlast : machine.store = machine.lastStore := by
      cases hcurrent : machine.current with
      | none => rw [store, hcurrent]
      | some entry =>
        rw [store_of_current hcurrent]
        exact hkeeps (h.app_eq ▸ h.stems _ _ hcurrent)
    rw [hlast, h.last_eq, lastResult, h.setup_eq]
    rfl

end Machine

end QuorumRounds
