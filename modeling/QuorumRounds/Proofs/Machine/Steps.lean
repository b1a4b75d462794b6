import QuorumRounds.Machine.Basic
import QuorumRounds.Proofs.Checked
import QuorumRounds.Proofs.Timeouts
import QuorumRounds.SortedMap.Lemmas

/-! # What a step of a machine does

Each lemma says all that one step of a machine with a current round can do, so that a property of
machines is shown to be kept without opening the step again.

* `Timeouts.Among`: what is pending is among the events on which the current round times out.
* `Machine.setup_cases`: a setup, for which the initial round can be built or not.
* `Machine.fire_eq_ok`: an event with an edge, whose round can be built.
* `Machine.SchedulesAt`: what is pending when a timestamp is seen.
* `Machine.updateTime_eq_ok`: a timestamp, which fires one of the pending timeouts or none.
* `Machine.processTransaction_eq_ok`: a transaction, which the current round takes or refuses.
* `Machine.endBlock_eq_ok`: the end of a block, on which the current round has decided or not.
-/

namespace QuorumRounds
set_option autoImplicit false

theorem TransitionTable.mem_eventsFrom {ρ ε : Type} [Ord ρ] [Ord ε] [Std.LawfulEqOrd ε]
    {table : TransitionTable ρ ε} {kind : ρ} {event : ε} :
    event ∈ table.eventsFrom kind ↔ ∃ next, table.next? kind event = some next := by
  rw [eventsFrom, ← SortedMap.contains_iff_mem_keys, SortedMap.contains, Option.isSome_iff_exists,
    next?]
  cases table.edges.get? kind with
  | none => simp
  | some edges => simp

theorem Application.mem_timeoutEvents {ρ ε κ σ : Type} [Ord ρ] [Ord ε] [Ord κ]
    [Std.LawfulEqOrd ε] {app : Application ρ ε κ σ} {kind : ρ} {event : ε} :
    event ∈ app.timeoutEvents kind ↔
      (∃ next, app.transitions.next? kind event = some next) ∧
        app.timeouts.contains event = true := by
  rw [timeoutEvents, List.mem_filter, TransitionTable.mem_eventsFrom]

namespace Machine
variable {ρ ε κ σ : Type} [Ord ρ] [Ord ε] [Ord κ] {machine after : Machine ρ ε κ σ} {kind : ρ}
  {round : σ}

/-! ## A new machine -/

omit machine in
theorem ofApplication_eq_ok [Named ρ] {app : Application ρ ε κ σ} {setup : SortedMap String Value}
    {config : Config ρ} {registry : Registry κ} {machine : Machine ρ ε κ σ}
    (h : ofApplication app setup config registry = .ok machine) :
    machine =
      { app := app
        config := config
        registry := registry
        setupStore := Store.ofSetup setup
        lastStore := Store.ofSetup setup
        current := none
        height := 0
        history := []
        timeouts := ∅
        awaitsTime := false
        lastTimestamp := none } := by
  rw [ofApplication] at h
  split at h
  · cases h
  · dsimp only at h
    split at h
    · exact (Except.ok.inj h).symm
    · split at h
      · exact (Except.ok.inj h).symm
      · cases h

omit machine in
/-- There are no more participants than are admissible. -/
theorem size_le_of_ofApplication [Named ρ] {app : Application ρ ε κ σ}
    {setup : SortedMap String Value} {config : Config ρ} {registry : Registry κ}
    {machine : Machine ρ ε κ σ} {participants : SortedSet String}
    (h : ofApplication app setup config registry = .ok machine)
    (hparticipants : (Store.ofSetup setup).participants = .ok participants) :
    participants.size ≤ config.params.maxParticipants.toNat := by
  rw [ofApplication] at h
  split at h
  · cases h
  · simp only [hparticipants] at h
    split at h
    case isTrue hle => exact hle
    case isFalse => cases h

/-! ## Entering a round -/

/-- Only events that have a timeout are scheduled. -/
theorem among_of_schedule {now : Duration} {timeouts scheduled : Timeouts ε}
    {events among : List ε} (h : machine.app.schedule now timeouts events = .ok scheduled)
    (hold : timeouts.Among among)
    (hnew : ∀ event ∈ events, machine.app.timeouts.contains event = true → event ∈ among) :
    scheduled.Among among := by
  induction events generalizing timeouts with
  | nil =>
    cases h
    exact hold
  | cons event rest ih =>
    rw [Application.schedule, List.foldlM_cons] at h
    obtain ⟨next, hnext, hrest⟩ := Checked.bind_eq_ok_iff.1 h
    apply ih hrest ?_ fun e he => hnew e (List.mem_cons_of_mem _ he)
    cases hspan : machine.app.timeouts.get? event with
    | none =>
      rw [hspan] at hnext
      cases hnext
      exact hold
    | some span =>
      rw [hspan] at hnext
      obtain ⟨deadline, _, rfl⟩ := Checked.map_eq_ok_iff.1 hnext
      have htimed : machine.app.timeouts.contains event = true := by
        rw [SortedMap.contains, hspan]
        rfl
      exact hold.schedule deadline (hnew event (List.mem_cons_self ..) htimed)

theorem scheduleTimeouts_eq_ok {now : Duration} (hcurrent : machine.current = some (kind, round))
    (hold : machine.timeouts.Among (machine.app.timeoutEvents kind))
    (h : machine.scheduleTimeouts now = .ok after) :
    ∃ timeouts, timeouts.Among (machine.app.timeoutEvents kind) ∧
      after = { machine with timeouts := timeouts, awaitsTime := false } := by
  rw [scheduleTimeouts, hcurrent] at h
  obtain ⟨timeouts, hscheduled, rfl⟩ := Checked.map_eq_ok_iff.1 h
  refine ⟨timeouts, among_of_schedule hscheduled hold ?_, by rw [hcurrent]⟩
  intro event hevent htimed
  exact List.mem_filter.2 ⟨hevent, htimed⟩

theorem enter_eq_ok (h : machine.enter kind round = .ok after) :
    ∃ timeouts awaitsTime, timeouts.Among (machine.app.timeoutEvents kind) ∧
      after = { machine with
        current := some (kind, round)
        timeouts := timeouts
        awaitsTime := awaitsTime } := by
  rw [enter] at h
  cases hlast : machine.lastTimestamp with
  | none =>
    rw [hlast] at h
    cases h
    exact ⟨∅, true, Timeouts.among_empty _, rfl⟩
  | some now =>
    simp only [hlast] at h
    obtain ⟨timeouts, hamong, rfl⟩ := scheduleTimeouts_eq_ok rfl (Timeouts.among_empty _) h
    exact ⟨timeouts, false, hamong, rfl⟩

theorem setup_eq_error {e : Error}
    (hbuild : machine.build machine.app.initial machine.setupStore = .error e) :
    machine.setup = .ok (.error e, machine.cleared) := by
  have hcleared : machine.cleared.build machine.app.initial machine.setupStore = .error e := hbuild
  simp only [setup, hcleared]

theorem setup_eq_enter {round : σ}
    (hbuild : machine.build machine.app.initial machine.setupStore = .ok round) :
    machine.setup = (machine.cleared.enter machine.app.initial round).map fun entered =>
      (.ok (), entered) := by
  have hcleared : machine.cleared.build machine.app.initial machine.setupStore = .ok round := hbuild
  simp only [setup, hcleared]

/-- A setup finds that the initial round cannot be built, or enters it. -/
theorem setup_cases {answer : Except Error Unit} (h : machine.setup = .ok (answer, after)) :
    (∃ e, machine.build machine.app.initial machine.setupStore = .error e ∧ answer = .error e ∧
        after = machine.cleared) ∨
      ∃ round, machine.build machine.app.initial machine.setupStore = .ok round ∧ answer = .ok () ∧
        machine.cleared.enter machine.app.initial round = .ok after := by
  cases hbuild : machine.build machine.app.initial machine.setupStore with
  | error e =>
    rw [setup_eq_error hbuild] at h
    cases h
    exact .inl ⟨e, rfl, rfl, rfl⟩
  | ok round =>
    rw [setup_eq_enter hbuild] at h
    obtain ⟨entered, henter, heq⟩ := Checked.map_eq_ok_iff.1 h
    cases heq
    exact .inr ⟨round, rfl, rfl, henter⟩

theorem setup_eq_ok {answer : Except Error Unit}
    (hbuild : machine.build machine.app.initial machine.setupStore = .ok round)
    (h : machine.setup = .ok (answer, after)) :
    answer = .ok () ∧
      ∃ timeouts awaitsTime,
        timeouts.Among (machine.app.timeoutEvents machine.app.initial) ∧
        after = { machine with
          height := 0
          history := []
          lastStore := machine.setupStore
          current := some (machine.app.initial, round)
          timeouts := timeouts
          awaitsTime := awaitsTime } := by
  rw [setup_eq_enter hbuild] at h
  obtain ⟨entered, henter, heq⟩ := Checked.map_eq_ok_iff.1 h
  cases heq
  exact ⟨rfl, enter_eq_ok henter⟩

/-- Without a timestamp no timeout is scheduled yet, so nothing overflows. -/
theorem exists_setup (hlast : machine.lastTimestamp = none)
    (hbuild : machine.build machine.app.initial machine.setupStore = .ok round) :
    ∃ after, machine.setup = .ok (.ok (), after) := by
  have hcleared : machine.cleared.lastTimestamp = none := hlast
  rw [setup_eq_enter hbuild, enter, hcleared]
  exact ⟨_, rfl⟩

theorem currentKind_of_current (hcurrent : machine.current = some (kind, round)) :
    machine.currentKind = some kind := by
  rw [currentKind, hcurrent, Option.map_some]

/-! ## Steps -/

section Rounds
variable {P : Type} [RoundBehavior σ P ε]

theorem store_of_current (hcurrent : machine.current = some (kind, round)) :
    machine.store = RoundBehavior.store round := by
  rw [store, hcurrent]

/-- The machine moves on to the next round, which takes over the store. -/
theorem fire_eq_ok {event : ε} {result : Option Store} {next : ρ} {successor : σ}
    {answer : Except Error (Option ε)} (hcurrent : machine.current = some (kind, round))
    (hnext : machine.app.transitions.next? kind event = some next)
    (hbuild : machine.build next (result.getD (RoundBehavior.store round)) = .ok successor)
    (h : machine.fire event result = .ok (answer, after)) :
    answer = .ok (some event) ∧
      ∃ height timeouts awaitsTime, Word.succ machine.height = .ok height ∧
        timeouts.Among (machine.app.timeoutEvents next) ∧
        after = { machine with
          current := some (next, successor)
          lastStore := result.getD (RoundBehavior.store round)
          history := machine.history ++ [(kind, result.getD (RoundBehavior.store round))]
          height := height
          timeouts := timeouts
          awaitsTime := awaitsTime } := by
  rw [fire] at h
  obtain ⟨⟨fired, moved⟩, hevent, heq⟩ := Checked.bind_eq_ok_iff.1 h
  cases heq
  simp only [processEvent, hcurrent, hnext, hbuild] at hevent
  obtain ⟨height, hheight, hrest⟩ := Checked.bind_eq_ok_iff.1 hevent
  obtain ⟨entered, henter, hanswer⟩ := Checked.bind_eq_ok_iff.1 hrest
  cases hanswer
  obtain ⟨timeouts, awaitsTime, hamong, rfl⟩ := enter_eq_ok henter
  exact ⟨rfl, height, timeouts, awaitsTime, hheight, hamong, rfl⟩

/-- Fires the earliest pending timeout if it is due. -/
def expire (machine : Machine ρ ε κ σ) (now : Duration) :
    Checked (Except Error (Option ε) × Machine ρ ε κ σ) :=
  match machine.timeouts.popExpired now with
  | (none, _) => .ok (.ok none, machine)
  | (some (_, event), rest) => Machine.fire { machine with timeouts := rest } event none

theorem updateTime_eq (machine : Machine ρ ε κ σ) (now : Duration) :
    machine.updateTime now =
      let stamped := { machine with lastTimestamp := some now }
      if machine.awaitsTime then stamped.scheduleTimeouts now >>= fun m => m.expire now
      else stamped.expire now := by
  cases hawaits : machine.awaitsTime with
  | true =>
    simp only [updateTime, hawaits, if_true]
    rfl
  | false =>
    simp only [updateTime, hawaits, Bool.false_eq_true, if_false]
    rfl

/-- A timestamp that fires nothing and schedules nothing is only recorded. -/
theorem updateTime_eq_none {now : Duration} (hawaits : machine.awaitsTime = false)
    (h : machine.updateTime now = .ok (.ok none, after)) :
    after = { machine with lastTimestamp := some now } := by
  have hexpire : expire { machine with lastTimestamp := some now } now = .ok (.ok none, after) := by
    simpa only [updateTime_eq, hawaits, Bool.false_eq_true, if_false] using h
  rw [expire] at hexpire
  split at hexpire
  · cases hexpire
    rfl
  · rw [fire] at hexpire
    obtain ⟨⟨fired, moved⟩, _, heq⟩ := Checked.bind_eq_ok_iff.1 hexpire
    cases fired <;> cases heq

/-- What is pending when the timestamp is seen: timeouts that have waited for it are scheduled first. -/
inductive SchedulesAt (machine : Machine ρ ε κ σ) (now : Duration) : Timeouts ε → Prop where
  | scheduled (hawaits : machine.awaitsTime = false) : SchedulesAt machine now machine.timeouts
  | stopped (hawaits : machine.awaitsTime = true) (hcurrent : machine.current = none) :
    SchedulesAt machine now machine.timeouts
  | deferred {kind : ρ} {round : σ} {timeouts : Timeouts ε} (hawaits : machine.awaitsTime = true)
    (hcurrent : machine.current = some (kind, round))
    (hschedule : machine.app.schedule now machine.timeouts
      (machine.app.transitions.eventsFrom kind) = .ok timeouts) : SchedulesAt machine now timeouts

omit [RoundBehavior σ P ε] in
theorem SchedulesAt.among {now : Duration} {timeouts : Timeouts ε}
    (h : machine.SchedulesAt now timeouts) (hcurrent : machine.current = some (kind, round))
    (hpending : machine.timeouts.Among (machine.app.timeoutEvents kind)) :
    timeouts.Among (machine.app.timeoutEvents kind) := by
  cases h with
  | scheduled | stopped => exact hpending
  | deferred _ hcurrent' hschedule =>
    cases hcurrent.symm.trans hcurrent'
    exact among_of_schedule hschedule hpending fun event hevent htimed =>
      List.mem_filter.2 ⟨hevent, htimed⟩

theorem exists_expire {now : Duration} {answer : Except Error (Option ε)}
    (h : machine.updateTime now = .ok (answer, after)) :
    ∃ timeouts, machine.SchedulesAt now timeouts ∧
      expire { machine with
        timeouts := timeouts, awaitsTime := false, lastTimestamp := some now } now =
          .ok (answer, after) := by
  rw [updateTime_eq] at h
  cases hawaits : machine.awaitsTime with
  | false =>
    rw [hawaits, if_neg Bool.false_ne_true] at h
    exact ⟨machine.timeouts, .scheduled hawaits, h⟩
  | true =>
    rw [hawaits, if_pos rfl] at h
    obtain ⟨scheduled, hscheduled, hexpire⟩ := Checked.bind_eq_ok_iff.1 h
    rw [scheduleTimeouts] at hscheduled
    split at hscheduled
    case h_1 hcurrent =>
      cases hscheduled
      exact ⟨machine.timeouts, .stopped hawaits hcurrent, hexpire⟩
    case h_2 hcurrent =>
      obtain ⟨timeouts, hschedule, rfl⟩ := Checked.map_eq_ok_iff.1 hscheduled
      exact ⟨timeouts, .deferred hawaits hcurrent hschedule, hexpire⟩

theorem updateTime_eq_ok {now : Duration} {answer : Except Error (Option ε)}
    (hcurrent : machine.current = some (kind, round))
    (hpending : machine.timeouts.Among (machine.app.timeoutEvents kind))
    (h : machine.updateTime now = .ok (answer, after)) :
    ∃ timeouts, timeouts.Among (machine.app.timeoutEvents kind) ∧
      let stamped := { machine with
        timeouts := timeouts
        awaitsTime := false
        lastTimestamp := some now }
      (answer = .ok none ∧ after = stamped ∨
        ∃ event ∈ machine.app.timeoutEvents kind,
          stamped.fire event none = .ok (answer, after)) := by
  obtain ⟨timeouts, hscheduled, hexpire⟩ := exists_expire h
  have hamong := hscheduled.among hcurrent hpending
  rw [expire] at hexpire
  cases hpop : timeouts.popExpired now with
  | mk expired rest =>
    obtain ⟨hleft, hevent⟩ := hamong.popExpired hpop
    simp only [hpop] at hexpire
    cases expired with
    | none =>
      cases hexpire
      exact ⟨timeouts, hamong, .inl ⟨rfl, rfl⟩⟩
    | some entry => exact ⟨rest, hleft, .inr ⟨entry.2, hevent entry.1 entry.2 rfl, hexpire⟩⟩

theorem checkTransaction_eq_ok {tx : Transaction P}
    (hcurrent : machine.current = some (kind, round))
    (h : machine.checkTransaction tx = .ok (.ok ())) : RoundBehavior.check round tx = .ok (.ok ()) := by
  simp only [checkTransaction, hcurrent] at h
  obtain ⟨answer, hanswer, heq⟩ := Checked.bind_eq_ok_iff.1 h
  cases answer with
  | error e => cases heq
  | ok _ => exact hanswer

theorem processTransaction_eq_ok {tx : Transaction P} {answer : Except Error Unit}
    (hcurrent : machine.current = some (kind, round))
    (h : machine.processTransaction tx = .ok (answer, after)) :
    ∃ taken moved, RoundBehavior.process round tx = .ok (taken, moved) ∧
      answer = taken.mapError .internal ∧ after = { machine with current := some (kind, moved) } := by
  simp only [processTransaction, hcurrent] at h
  obtain ⟨⟨taken, moved⟩, hprocess, heq⟩ := Checked.bind_eq_ok_iff.1 h
  cases heq
  exact ⟨taken, moved, hprocess, rfl, rfl⟩

theorem endBlock_eq_ok {answer : Except Error (Option ε)}
    (hcurrent : machine.current = some (kind, round))
    (h : machine.endBlock = .ok (answer, after)) :
    ∃ outcome asked, RoundBehavior.endBlock round = .ok (outcome, asked) ∧
      (outcome = none ∧ answer = .ok none ∧
          after = { machine with current := some (kind, asked) } ∨
        ∃ store event, outcome = some (store, event) ∧
          Machine.fire { machine with current := some (kind, asked) } event (some store) =
            .ok (answer, after)) := by
  simp only [Machine.endBlock, hcurrent] at h
  obtain ⟨⟨outcome, asked⟩, hask, hrest⟩ := Checked.bind_eq_ok_iff.1 h
  refine ⟨outcome, asked, hask, ?_⟩
  cases outcome with
  | none =>
    cases hrest
    exact .inl ⟨rfl, rfl, rfl⟩
  | some pair =>
    obtain ⟨store, event⟩ := pair
    exact .inr ⟨store, event, rfl, hrest⟩

end Rounds

end Machine

end QuorumRounds
