import QuorumRounds.Machine.Calls
import QuorumRounds.Proofs.Machine.Steps

/-! # What a call can do

`Machine.Reachable` are the machines that calls lead to.

`EventOutcome` lists what an event can do, also one from outside with a store that no round has
handed on: the machine ignores it, stops, refuses to move, or moves on to another round. `Outcome`
lists what a call can do (`ask_outcome`), so that a property of machines is kept by every call if it is
kept in each of these cases.

A property of rounds that holds of every round that is built, and that a round keeps, holds of the
current round of every machine that can be reached (`Upholds.reachable`). -/

namespace QuorumRounds.Machine
set_option autoImplicit false

variable {ρ ε κ σ P : Type} [Ord ρ] [Ord ε] [Ord κ] [RoundBehavior σ P ε]
  {machine after : Machine ρ ε κ σ}

/-- Calls lead from the one machine to the other, also calls that answer with an error. -/
inductive Reachable (start : Machine ρ ε κ σ) : Machine ρ ε κ σ → Prop where
  | start : Reachable start start
  | called {machine after : Machine ρ ε κ σ} {call : Call ε P} {answer : Except Error Unit}
    (hmachine : Reachable start machine) (hcall : machine.call call = .ok (answer, after)) :
    Reachable start after

theorem Reachable.run {start : Machine ρ ε κ σ} {calls : List (Call ε P)}
    (h : Reachable start machine) (hrun : machine.run calls = .ok after) : Reachable start after := by
  refine Checked.holds_of_foldlM (Reachable start) ?_ h hrun
  intro machine call next hmachine hnext
  obtain ⟨⟨answer, after⟩, hcall, rfl⟩ := Checked.map_eq_ok_iff.1 hnext
  exact .called hmachine hcall

/-! ## Events -/

inductive EventOutcome (machine : Machine ρ ε κ σ) (event : ε) (result : Option Store) :
    Except Error Unit → Machine ρ ε κ σ → Prop where
  | ignored (hcurrent : machine.current = none) :
    EventOutcome machine event result (.ok ()) machine
  | stopped {kind : ρ} {round : σ} (hcurrent : machine.current = some (kind, round))
    (hnext : machine.app.transitions.next? kind event = none) :
    EventOutcome machine event result (.ok ())
      (machine.leave kind (result.getD (RoundBehavior.store round)))
  | refused {kind next : ρ} {round : σ} {e : Error}
    (hcurrent : machine.current = some (kind, round))
    (hnext : machine.app.transitions.next? kind event = some next)
    (hbuild : machine.build next (result.getD (RoundBehavior.store round)) = .error e) :
    EventOutcome machine event result (.error e) machine
  | moved {kind next : ρ} {round successor : σ} {height : UInt64} {after : Machine ρ ε κ σ}
    (hcurrent : machine.current = some (kind, round))
    (hnext : machine.app.transitions.next? kind event = some next)
    (hbuild : machine.build next (result.getD (RoundBehavior.store round)) = .ok successor)
    (hheight : Word.succ machine.height = .ok height)
    (henter : enter { machine.leave kind (result.getD (RoundBehavior.store round)) with
      height := height } next successor = .ok after) :
    EventOutcome machine event result (.ok ()) after

theorem processEvent_outcome {event : ε} {result : Option Store} {answer : Except Error Unit}
    (h : machine.processEvent event result = .ok (answer, after)) :
    EventOutcome machine event result answer after := by
  cases hcurrent : machine.current with
  | none =>
    simp only [processEvent, hcurrent] at h
    cases h
    exact .ignored hcurrent
  | some entry =>
    obtain ⟨kind, round⟩ := entry
    simp only [processEvent, hcurrent] at h
    cases hnext : machine.app.transitions.next? kind event with
    | none =>
      simp only [hnext] at h
      cases h
      exact .stopped hcurrent hnext
    | some next =>
      simp only [hnext] at h
      cases hbuild : machine.build next (result.getD (RoundBehavior.store round)) with
      | error e =>
        simp only [hbuild] at h
        cases h
        exact .refused hcurrent hnext hbuild
      | ok successor =>
        simp only [hbuild] at h
        obtain ⟨height, hheight, hrest⟩ := Checked.bind_eq_ok_iff.1 h
        obtain ⟨entered, henter, heq⟩ := Checked.bind_eq_ok_iff.1 hrest
        cases heq
        exact .moved hcurrent hnext hbuild hheight henter

/-- On an edge everything depends on whether the round that it leads to can be built. -/
theorem EventOutcome.of_edge {event : ε} {result : Option Store} {answer : Except Error Unit}
    {kind next : ρ} {round : σ} (h : EventOutcome machine event result answer after)
    (hcurrent : machine.current = some (kind, round))
    (hnext : machine.app.transitions.next? kind event = some next) :
    (∃ e, machine.build next (result.getD (RoundBehavior.store round)) = .error e ∧
        answer = .error e ∧ after = machine) ∨
      ∃ successor height,
        machine.build next (result.getD (RoundBehavior.store round)) = .ok successor ∧
        answer = .ok () ∧ Word.succ machine.height = .ok height ∧
        enter { machine.leave kind (result.getD (RoundBehavior.store round)) with height := height }
          next successor = .ok after := by
  cases h with
  | ignored hcurrent' => cases hcurrent.symm.trans hcurrent'
  | stopped hcurrent' hnext' =>
    cases hcurrent.symm.trans hcurrent'
    cases hnext.symm.trans hnext'
  | refused hcurrent' hnext' hbuild =>
    cases hcurrent.symm.trans hcurrent'
    cases hnext.symm.trans hnext'
    exact .inl ⟨_, hbuild, rfl, rfl⟩
  | moved hcurrent' hnext' hbuild hheight henter =>
    cases hcurrent.symm.trans hcurrent'
    cases hnext.symm.trans hnext'
    exact .inr ⟨_, _, hbuild, rfl, hheight, henter⟩

theorem EventOutcome.of_build {event : ε} {result : Option Store} {answer : Except Error Unit}
    {kind next : ρ} {round successor : σ} (h : EventOutcome machine event result answer after)
    (hcurrent : machine.current = some (kind, round))
    (hnext : machine.app.transitions.next? kind event = some next)
    (hbuild : machine.build next (result.getD (RoundBehavior.store round)) = .ok successor) :
    answer = .ok () ∧ ∃ height, Word.succ machine.height = .ok height ∧
      enter { machine.leave kind (result.getD (RoundBehavior.store round)) with height := height }
        next successor = .ok after := by
  rcases h.of_edge hcurrent hnext with ⟨e, hfails, _⟩ | ⟨built, height, hbuilt, hanswer, hheight, henter⟩
  · cases hbuild.symm.trans hfails
  · cases hbuild.symm.trans hbuilt
    exact ⟨hanswer, height, hheight, henter⟩

theorem fire_outcome {event : ε} {result : Option Store} {answer : Except Error (Option ε)}
    (h : machine.fire event result = .ok (answer, after)) :
    ∃ moved, answer = moved.map (fun _ => some event) ∧
      EventOutcome machine event result moved after := by
  obtain ⟨⟨moved, last⟩, hevent, heq⟩ := Checked.bind_eq_ok_iff.1 h
  cases heq
  exact ⟨moved, rfl, processEvent_outcome hevent⟩

/-! ## Calls -/

/-- All that a call can do, with its answer. -/
inductive Outcome (machine : Machine ρ ε κ σ) :
    Call ε P → Except Error (Option ε) → Machine ρ ε κ σ → Prop where
  | unbuilt {e : Error}
    (hbuild : machine.build machine.app.initial machine.setupStore = .error e) :
    Outcome machine .setup (.error e) machine.cleared
  | setUp {round : σ} {after : Machine ρ ε κ σ}
    (hbuild : machine.build machine.app.initial machine.setupStore = .ok round)
    (henter : machine.cleared.enter machine.app.initial round = .ok after) :
    Outcome machine .setup (.ok none) after
  | unheard {tx : Transaction P} (hcurrent : machine.current = none) :
    Outcome machine (.processTransaction tx) (.error (.internal .noActiveRound)) machine
  | processed {tx : Transaction P} {kind : ρ} {round moved : σ} {taken : Except InternalError Unit}
    (hcurrent : machine.current = some (kind, round))
    (hprocess : RoundBehavior.process round tx = .ok (taken, moved)) :
    Outcome machine (.processTransaction tx) ((taken.mapError .internal).map fun _ => none)
      { machine with current := some (kind, moved) }
  | event {event : ε} {result : Option Store} {moved : Except Error Unit}
    {after : Machine ρ ε κ σ} (hevent : EventOutcome machine event result moved after) :
    Outcome machine (.processEvent event result) (moved.map fun _ => none) after
  | unasked (hcurrent : machine.current = none) : Outcome machine .endBlock (.ok none) machine
  | undecided {kind : ρ} {round asked : σ} (hcurrent : machine.current = some (kind, round))
    (hasked : RoundBehavior.endBlock round = .ok (none, asked)) :
    Outcome machine .endBlock (.ok none) { machine with current := some (kind, asked) }
  | decided {kind : ρ} {round asked : σ} {store : Store} {event : ε} {moved : Except Error Unit}
    {after : Machine ρ ε κ σ} (hcurrent : machine.current = some (kind, round))
    (hasked : RoundBehavior.endBlock round = .ok (some (store, event), asked))
    (hevent : EventOutcome { machine with current := some (kind, asked) } event (some store) moved
      after) :
    Outcome machine .endBlock (moved.map fun _ => some event) after
  | stamped {now : Duration} {timeouts : Timeouts ε}
    (hscheduled : machine.SchedulesAt now timeouts) (hpop : (timeouts.popExpired now).1 = none) :
    Outcome machine (.updateTime now) (.ok none)
      { machine with timeouts := timeouts, awaitsTime := false, lastTimestamp := some now }
  | expired {now deadline : Duration} {timeouts rest : Timeouts ε} {event : ε}
    {moved : Except Error Unit} {after : Machine ρ ε κ σ}
    (hscheduled : machine.SchedulesAt now timeouts)
    (hpop : timeouts.popExpired now = (some (deadline, event), rest))
    (hevent : EventOutcome
      { machine with timeouts := rest, awaitsTime := false, lastTimestamp := some now } event none
      moved after) :
    Outcome machine (.updateTime now) (moved.map fun _ => some event) after
  | cleaned {depth : Nat} : Outcome machine (.cleanup depth) (.ok none) (machine.cleanup depth)

/-- What has been called answers alike, up to the event. -/
theorem ask_of_call {call : Call ε P} {answer : Except Error Unit}
    (h : machine.call call = .ok (answer, after)) :
    ∃ fired, machine.ask call = .ok (fired, after) ∧ answer = fired.map fun _ => () := by
  cases call with
  | endBlock | updateTime now =>
    obtain ⟨⟨fired, last⟩, hask, heq⟩ := Checked.map_eq_ok_iff.1 h
    cases heq
    exact ⟨fired, hask, rfl⟩
  | setup | processTransaction | processEvent =>
    refine ⟨answer.map fun _ => none, Checked.map_eq_ok_iff.2 ⟨_, h, rfl⟩, ?_⟩
    cases answer <;> rfl
  | cleanup depth =>
    cases h
    exact ⟨.ok none, rfl, rfl⟩

theorem ask_outcome {call : Call ε P} {answer : Except Error (Option ε)}
    (h : machine.ask call = .ok (answer, after)) : Outcome machine call answer after := by
  cases call with
  | setup =>
    obtain ⟨⟨entered, last⟩, hsetup, heq⟩ := Checked.map_eq_ok_iff.1 h
    cases heq
    rcases setup_cases hsetup with ⟨e, hbuild, rfl, rfl⟩ | ⟨round, hbuild, rfl, henter⟩
    · exact .unbuilt hbuild
    · exact .setUp hbuild henter
  | processTransaction tx =>
    obtain ⟨⟨taken, last⟩, hprocess, heq⟩ := Checked.map_eq_ok_iff.1 h
    cases heq
    cases hcurrent : machine.current with
    | none =>
      simp only [Machine.call, processTransaction, hcurrent] at hprocess
      cases hprocess
      exact .unheard hcurrent
    | some entry =>
      obtain ⟨taken, moved, hmoved, rfl, rfl⟩ := processTransaction_eq_ok hcurrent hprocess
      exact .processed hcurrent hmoved
  | processEvent event result =>
    obtain ⟨⟨moved, last⟩, hevent, heq⟩ := Checked.map_eq_ok_iff.1 h
    cases heq
    exact .event (processEvent_outcome hevent)
  | endBlock =>
    cases hcurrent : machine.current with
    | none =>
      simp only [ask, endBlock, hcurrent] at h
      cases h
      exact .unasked hcurrent
    | some entry =>
      obtain ⟨outcome, asked, hasked, ⟨rfl, rfl, rfl⟩ | ⟨store, event, rfl, hfire⟩⟩ :=
        endBlock_eq_ok hcurrent h
      · exact .undecided hcurrent hasked
      · obtain ⟨moved, rfl, hevent⟩ := fire_outcome hfire
        exact .decided hcurrent hasked hevent
  | updateTime now =>
    obtain ⟨timeouts, hscheduled, hexpire⟩ := exists_expire h
    rw [expire] at hexpire
    split at hexpire
    case h_1 hpop =>
      cases hexpire
      exact .stamped hscheduled (congrArg Prod.fst hpop)
    case h_2 hpop =>
      obtain ⟨moved, rfl, hevent⟩ := fire_outcome hexpire
      exact .expired hscheduled hpop hevent
  | cleanup depth =>
    cases h
    exact .cleaned

theorem call_outcome {call : Call ε P} {answer : Except Error Unit}
    (h : machine.call call = .ok (answer, after)) :
    ∃ fired, Outcome machine call fired after ∧ answer = fired.map fun _ => () := by
  obtain ⟨fired, hask, hanswer⟩ := ask_of_call h
  exact ⟨fired, ask_outcome hask, hanswer⟩

/-- A timestamp that is answered with an event, or with an error, has taken out a timeout. -/
theorem expired_of_updateTime {now : Duration} {answer : Except Error (Option ε)}
    (h : machine.updateTime now = .ok (answer, after)) (hanswer : answer ≠ .ok none) :
    ∃ timeouts deadline event rest moved, machine.SchedulesAt now timeouts ∧
      timeouts.popExpired now = (some (deadline, event), rest) ∧
      answer = moved.map (fun _ => some event) ∧
      EventOutcome { machine with
        timeouts := rest, awaitsTime := false, lastTimestamp := some now } event none moved after := by
  have houtcome : Outcome machine (.updateTime now) answer after := ask_outcome h
  cases houtcome with
  | stamped => exact absurd rfl hanswer
  | expired hscheduled hpop hevent => exact ⟨_, _, _, _, _, hscheduled, hpop, rfl, hevent⟩

theorem eq_of_updateTime_none {now : Duration} (h : machine.updateTime now = .ok (.ok none, after)) :
    ∃ timeouts, after = { machine with
      timeouts := timeouts, awaitsTime := false, lastTimestamp := some now } := by
  generalize hanswer : (.ok none : Except Error (Option ε)) = answer at h
  have houtcome : Outcome machine (.updateTime now) answer after := ask_outcome h
  cases houtcome with
  | stamped => exact ⟨_, rfl⟩
  | @expired _ _ _ _ _ moved => cases moved <;> cases hanswer

/-! ## Properties of rounds -/

structure Invariant (app : Application ρ ε κ σ) (good : σ → Prop) : Prop where
  build : ∀ {kind context round}, app.build kind context = .ok round → good round
  process : ∀ {round tx answer after}, good round →
    RoundBehavior.process round tx = .ok (answer, after) → good after
  endBlock : ∀ {round outcome after}, good round →
    RoundBehavior.endBlock round = .ok (outcome, after) → good after

structure Upholds (app : Application ρ ε κ σ) (good : σ → Prop) (machine : Machine ρ ε κ σ) :
    Prop where
  app_eq : machine.app = app
  current : ∀ kind round, machine.current = some (kind, round) → good round

namespace Upholds
variable {app : Application ρ ε κ σ} {good : σ → Prop}

omit [RoundBehavior σ P ε] in
theorem of_some {kind : ρ} {round : σ} (happ : machine.app = app)
    (hcurrent : machine.current = some (kind, round)) (hgood : good round) :
    Upholds app good machine := by
  refine ⟨happ, fun kind' round' hcurrent' => ?_⟩
  cases hcurrent.symm.trans hcurrent'
  exact hgood

theorem eventOutcome (hinvariant : Invariant app good) (h : Upholds app good machine) {event : ε}
    {result : Option Store} {answer : Except Error Unit}
    (houtcome : EventOutcome machine event result answer after) : Upholds app good after := by
  cases houtcome with
  | ignored => exact h
  | stopped => exact ⟨h.app_eq, nofun⟩
  | refused => exact h
  | @moved kind next round successor height _ hcurrent hnext hbuild hheight henter =>
    obtain ⟨timeouts, awaitsTime, _, rfl⟩ := enter_eq_ok henter
    rw [build, h.app_eq] at hbuild
    exact of_some h.app_eq rfl (hinvariant.build hbuild)

theorem outcome (hinvariant : Invariant app good) (h : Upholds app good machine) {call : Call ε P}
    {answer : Except Error (Option ε)} (houtcome : Outcome machine call answer after) :
    Upholds app good after := by
  cases houtcome with
  | unbuilt | stamped | cleaned => exact ⟨h.app_eq, h.current⟩
  | unheard | unasked => exact h
  | setUp hbuild henter =>
    obtain ⟨timeouts, awaitsTime, _, rfl⟩ := enter_eq_ok henter
    rw [build] at hbuild
    exact of_some h.app_eq rfl (hinvariant.build (h.app_eq ▸ hbuild))
  | processed hcurrent hprocess =>
    exact of_some h.app_eq rfl (hinvariant.process (h.current _ _ hcurrent) hprocess)
  | event hevent => exact h.eventOutcome hinvariant hevent
  | undecided hcurrent hasked =>
    exact of_some h.app_eq rfl (hinvariant.endBlock (h.current _ _ hcurrent) hasked)
  | decided hcurrent hasked hevent =>
    refine eventOutcome hinvariant ?_ hevent
    exact of_some h.app_eq rfl (hinvariant.endBlock (h.current _ _ hcurrent) hasked)
  | expired _ _ hevent =>
    refine eventOutcome hinvariant ?_ hevent
    exact ⟨h.app_eq, h.current⟩

/-- A new machine is in no round. -/
theorem ofApplication [Named ρ] {setup : SortedMap String Value} {config : Config ρ}
    {registry : Registry κ} (h : Machine.ofApplication app setup config registry = .ok machine) :
    Upholds app good machine := by
  rw [ofApplication_eq_ok h]
  exact ⟨rfl, nofun⟩

theorem reachable (hinvariant : Invariant app good) {start : Machine ρ ε κ σ}
    (h : Upholds app good start) (hmachine : Reachable start machine) :
    Upholds app good machine := by
  induction hmachine with
  | start => exact h
  | called _ hcall ih =>
    obtain ⟨_, houtcome, _⟩ := call_outcome hcall
    exact ih.outcome hinvariant houtcome

end Upholds

end QuorumRounds.Machine
