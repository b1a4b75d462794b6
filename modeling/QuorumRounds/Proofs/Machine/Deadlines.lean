import QuorumRounds.Proofs.Machine.Calls
import QuorumRounds.Proofs.Timeouts

/-! # The pending timeouts are those of the current round

`Clocked start machine seen entered` says that calls have led from `start` to the machine, that these
timestamps have been seen, oldest first, and how many of them when the current round was entered. The
timeouts of the round count from the last of those or, if there was none yet, from the first one
after them (`countedFrom`).

What is pending when a timestamp is seen includes the timeouts that have waited for it
(`pendingAt`, `SchedulesAt.due_eq`). As long as the rounds that follow can be built (`NeverStuck`),
those are the deadlines of the current round (`Scheduled.pendingAt_eq`, `Clocked.scheduled`), and a
timestamp fires the least of them that is due, or nothing (`Scheduled.updateTime`). -/

namespace QuorumRounds
set_option autoImplicit false

/-! ## Deadlines -/

section Deadlines
variable {ρ ε κ σ : Type} [Ord ρ] [Ord ε] [Ord κ]

/-- The deadline of an event that times out, in nanoseconds, when it counts from the given moment. -/
def Application.deadline? (app : Application ρ ε κ σ) (since : Duration) (event : ε) :
    Option (Nat × ε) :=
  (app.timeouts.get? event).map fun span => (since.nanos + span.nanos, event)

/-- The deadlines of a round of this kind, in the order of its events. -/
def Application.deadlines (app : Application ρ ε κ σ) (kind : ρ) (since : Duration) :
    List (Nat × ε) :=
  (app.transitions.eventsFrom kind).filterMap (app.deadline? since)

theorem Application.deadlines_increase (app : Application ρ ε κ σ) (kind : ρ) (since : Duration) :
    (app.deadlines kind since).Pairwise fun a b => compare a.2 b.2 = .lt := by
  have hevents : (app.transitions.eventsFrom kind).Pairwise fun a b => compare a b = .lt := by
    rw [TransitionTable.eventsFrom, SortedMap.keys, List.pairwise_map]
    exact ((app.transitions.edges.get? kind).getD ∅).keysIncrease
  refine hevents.filterMap _ ?_
  intro a b hab c hc d hd
  obtain ⟨_, _, rfl⟩ := Option.map_eq_some_iff.1 hc
  obtain ⟨_, _, rfl⟩ := Option.map_eq_some_iff.1 hd
  exact hab

theorem Application.mem_eventsFrom_of_mem_deadlines {app : Application ρ ε κ σ} {kind : ρ}
    {since : Duration} {entry : Nat × ε} (h : entry ∈ app.deadlines kind since) :
    entry.2 ∈ app.transitions.eventsFrom kind := by
  obtain ⟨event, hevent, hentry⟩ := List.mem_filterMap.1 h
  obtain ⟨_, _, rfl⟩ := Option.map_eq_some_iff.1 hentry
  exact hevent

theorem Application.due_of_schedule {app : Application ρ ε κ σ} {now : Duration}
    {timeouts scheduled : Timeouts ε} {events : List ε}
    (h : app.schedule now timeouts events = .ok scheduled) :
    scheduled.due = timeouts.due ++ events.filterMap (app.deadline? now) := by
  induction events generalizing timeouts with
  | nil =>
    cases h
    rw [List.filterMap_nil, List.append_nil]
  | cons event rest ih =>
    rw [schedule, List.foldlM_cons] at h
    obtain ⟨next, hnext, hrest⟩ := Checked.bind_eq_ok_iff.1 h
    rw [ih hrest, List.filterMap_cons, deadline?]
    cases hspan : app.timeouts.get? event with
    | none =>
      rw [hspan] at hnext
      cases hnext
      rfl
    | some span =>
      rw [hspan] at hnext
      obtain ⟨deadline, hdeadline, rfl⟩ := Checked.map_eq_ok_iff.1 hnext
      rw [Timeouts.due_schedule, Duration.add_eq_ok_iff.1 hdeadline, List.append_assoc]
      rfl

end Deadlines

namespace Machine

/-! ## Timestamps -/

/-- The moment from which a round counts that was entered after so many of the timestamps. -/
def countedFrom (seen : List Duration) (entered : Nat) : Option Duration :=
  (seen.take entered).getLast?.or (seen.drop entered).head?

theorem countedFrom_length (seen : List Duration) :
    countedFrom seen seen.length = seen.getLast? := by
  rw [countedFrom, List.take_length, List.drop_length, List.head?_nil, Option.or_none]

/-- Later timestamps change nothing once there has been one. -/
theorem countedFrom_append {seen : List Duration} {entered : Nat} (hseen : seen ≠ [])
    (hentered : entered ≤ seen.length) (later : List Duration) :
    countedFrom (seen ++ later) entered = countedFrom seen entered := by
  obtain ⟨first, rest, rfl⟩ := List.exists_cons_of_ne_nil hseen
  cases entered with
  | zero => rfl
  | succ n =>
    rw [countedFrom, countedFrom, List.take_append_of_le_length hentered, List.take_succ_cons,
      List.getLast?_cons, Option.some_or, Option.some_or]

variable {ρ ε κ σ P : Type} [Ord ρ] [Ord ε] [Ord κ] {start machine after : Machine ρ ε κ σ}
  {seen : List Duration} {entered : Nat}

section Clock
variable [RoundBehavior σ P ε]

def Call.timestamps : Call ε P → List Duration
  | .updateTime now => [now]
  | _ => []

/-- A round is entered by a setup that succeeds, and by every call that raises the height. -/
def Enters (call : Call ε P) (answer : Except Error Unit) (before after : Machine ρ ε κ σ) : Prop :=
  match call with
  | .setup => answer = .ok ()
  | _ => after.height ≠ before.height

inductive Clocked (start : Machine ρ ε κ σ) : Machine ρ ε κ σ → List Duration → Nat → Prop where
  | start : Clocked start start [] 0
  | entered {machine after : Machine ρ ε κ σ} {seen : List Duration} {entered : Nat}
    {call : Call ε P} {answer : Except Error Unit} (hmachine : Clocked start machine seen entered)
    (hcall : machine.call call = .ok (answer, after)) (henters : Enters call answer machine after) :
    Clocked start after (seen ++ call.timestamps) (seen ++ call.timestamps).length
  | stayed {machine after : Machine ρ ε κ σ} {seen : List Duration} {entered : Nat}
    {call : Call ε P} {answer : Except Error Unit} (hmachine : Clocked start machine seen entered)
    (hcall : machine.call call = .ok (answer, after)) (hstays : ¬ Enters call answer machine after) :
    Clocked start after (seen ++ call.timestamps) entered

theorem Clocked.reachable (h : Clocked start machine seen entered) : Reachable start machine := by
  induction h with
  | start => exact .start
  | entered _ hcall _ ih => exact .called ih hcall
  | stayed _ hcall _ ih => exact .called ih hcall

/-- Every run has a clock. -/
theorem Clocked.run {calls : List (Call ε P)} (h : Clocked start machine seen entered)
    (hrun : machine.run calls = .ok after) :
    ∃ entered, Clocked start after (seen ++ calls.flatMap Call.timestamps) entered := by
  induction calls generalizing machine seen entered with
  | nil =>
    cases hrun
    exact ⟨entered, by rwa [List.flatMap_nil, List.append_nil]⟩
  | cons call rest ih =>
    rw [Machine.run, List.foldlM_cons] at hrun
    obtain ⟨next, hnext, hrest⟩ := Checked.bind_eq_ok_iff.1 hrun
    obtain ⟨⟨answer, next⟩, hcall, rfl⟩ := Checked.map_eq_ok_iff.1 hnext
    rw [List.flatMap_cons, ← List.append_assoc]
    by_cases henters : Enters call answer machine next
    · exact ih (.entered h hcall henters) hrest
    · exact ih (.stayed h hcall henters) hrest

end Clock

/-! ## Scheduling -/

/-- What is to be pending when the timeouts count from the given moment, if any. -/
def deadlines (machine : Machine ρ ε κ σ) (since : Option Duration) : List (Nat × ε) :=
  match machine.currentKind with
  | none => []
  | some kind => (since.map (machine.app.deadlines kind)).getD []

theorem deadlines_of_stopped (hkind : machine.currentKind = none) (since : Option Duration) :
    machine.deadlines since = [] := by
  rw [deadlines, hkind]

theorem deadlines_none (machine : Machine ρ ε κ σ) : machine.deadlines none = [] := by
  rw [deadlines]
  cases machine.currentKind <;> rfl

theorem deadlines_some {kind : ρ} (hkind : machine.currentKind = some kind) (since : Duration) :
    machine.deadlines (some since) = machine.app.deadlines kind since := by
  rw [deadlines, hkind]
  rfl

theorem deadlines_increase (machine : Machine ρ ε κ σ) (since : Option Duration) :
    (machine.deadlines since).Pairwise fun a b => compare a.2 b.2 = .lt := by
  cases since with
  | none =>
    rw [deadlines_none]
    exact .nil
  | some since =>
    cases hkind : machine.currentKind with
    | none =>
      rw [deadlines_of_stopped hkind]
      exact .nil
    | some kind =>
      rw [deadlines_some hkind]
      exact machine.app.deadlines_increase kind since

/-- What is pending in a round is on an event on which the round is left. -/
theorem exists_next_of_mem_deadlines [Std.LawfulEqOrd ε] {since : Option Duration}
    {entry : Nat × ε} (h : entry ∈ machine.deadlines since) :
    ∃ kind round next, machine.current = some (kind, round) ∧
      machine.app.transitions.next? kind entry.2 = some next := by
  cases since with
  | none =>
    rw [deadlines_none] at h
    cases h
  | some since =>
    cases hcurrent : machine.current with
    | none =>
      rw [deadlines_of_stopped (by rw [currentKind, hcurrent, Option.map_none])] at h
      cases h
    | some current =>
      rw [deadlines_some (currentKind_of_current hcurrent)] at h
      obtain ⟨next, hnext⟩ :=
        TransitionTable.mem_eventsFrom.1 (Application.mem_eventsFrom_of_mem_deadlines h)
      exact ⟨current.1, current.2, next, rfl, hnext⟩

theorem scheduleTimeouts_exactly {now : Duration} (h : machine.scheduleTimeouts now = .ok after)
    (hempty : machine.timeouts.due = []) :
    ∃ timeouts, after = { machine with timeouts := timeouts, awaitsTime := false } ∧
      timeouts.due = machine.deadlines (some now) := by
  rw [scheduleTimeouts] at h
  cases hcurrent : machine.current with
  | none =>
    rw [hcurrent] at h
    cases h
    refine ⟨machine.timeouts, rfl, ?_⟩
    rw [hempty, deadlines_of_stopped (by rw [currentKind, hcurrent, Option.map_none])]
  | some entry =>
    rw [hcurrent] at h
    obtain ⟨timeouts, hscheduled, rfl⟩ := Checked.map_eq_ok_iff.1 h
    refine ⟨timeouts, rfl, ?_⟩
    rw [Application.due_of_schedule hscheduled, hempty, List.nil_append,
      deadlines_some (currentKind_of_current hcurrent)]
    rfl

theorem enter_exactly {kind : ρ} {round : σ} (h : machine.enter kind round = .ok after) :
    ∃ timeouts, after = { machine with
        current := some (kind, round)
        timeouts := timeouts
        awaitsTime := machine.lastTimestamp.isNone } ∧
      timeouts.due = after.deadlines machine.lastTimestamp := by
  rw [enter] at h
  cases hlast : machine.lastTimestamp with
  | none =>
    rw [hlast] at h
    cases h
    exact ⟨∅, rfl, rfl⟩
  | some now =>
    simp only [hlast] at h
    obtain ⟨timeouts, rfl, hdue⟩ := scheduleTimeouts_exactly h rfl
    exact ⟨timeouts, rfl, hdue⟩

/-- The deadlines that are pending when the timestamp is seen. Those that have waited for it are
scheduled first. -/
def pendingAt (machine : Machine ρ ε κ σ) (now : Duration) : List (Nat × ε) :=
  if machine.awaitsTime then machine.deadlines (some now) else machine.timeouts.due

theorem pendingAt_of_scheduled (h : machine.awaitsTime = false) (now : Duration) :
    machine.pendingAt now = machine.timeouts.due := by
  rw [pendingAt, h, if_neg Bool.false_ne_true]

/-- The deferred timeouts are scheduled before any of them expires. -/
theorem SchedulesAt.due_eq {now : Duration} {timeouts : Timeouts ε}
    (h : machine.SchedulesAt now timeouts)
    (hwaits : machine.awaitsTime = true → machine.timeouts.due = []) :
    timeouts.due = machine.pendingAt now := by
  cases h with
  | scheduled hawaits => rw [pendingAt_of_scheduled hawaits]
  | stopped hawaits hcurrent =>
    rw [pendingAt, if_pos hawaits, hwaits hawaits,
      deadlines_of_stopped (by rw [currentKind, hcurrent, Option.map_none])]
  | deferred hawaits hcurrent hschedule =>
    rw [pendingAt, if_pos hawaits, deadlines_some (currentKind_of_current hcurrent),
      Application.due_of_schedule hschedule, hwaits hawaits, List.nil_append, Application.deadlines]

/-! ## What every call keeps -/

structure Scheduled (machine : Machine ρ ε κ σ) (seen : List Duration) (entered : Nat) : Prop where
  last_eq : machine.lastTimestamp = seen.getLast?
  entered_le : entered ≤ seen.length
  awaits : machine.awaitsTime = true → seen = []
  waiting : seen = [] → machine.currentKind ≠ none → machine.awaitsTime = true
  due_eq : machine.timeouts.due = machine.deadlines (countedFrom seen entered)

namespace Scheduled

/-- A round is entered whatever was pending before. -/
theorem enter {kind : ρ} {round : σ} (henter : machine.enter kind round = .ok after)
    (hlast : machine.lastTimestamp = seen.getLast?) : Scheduled after seen seen.length := by
  obtain ⟨timeouts, rfl, hdue⟩ := enter_exactly henter
  refine ⟨hlast, Nat.le_refl _, ?_, ?_, ?_⟩
  · intro hawaits
    rwa [hlast, Option.isNone_iff_eq_none, List.getLast?_eq_none_iff] at hawaits
  · intro hseen _
    rw [hlast, hseen]
    rfl
  · rw [countedFrom_length, ← hlast]
    exact hdue

theorem same (h : Scheduled machine seen entered) (happ : after.app = machine.app)
    (hkind : after.currentKind = machine.currentKind) (htimeouts : after.timeouts = machine.timeouts)
    (hawaits : after.awaitsTime = machine.awaitsTime)
    (hlast : after.lastTimestamp = machine.lastTimestamp) : Scheduled after seen entered where
  last_eq := hlast.trans h.last_eq
  entered_le := h.entered_le
  awaits := by
    rw [hawaits]
    exact h.awaits
  waiting := by
    rw [hawaits, hkind]
    exact h.waiting
  due_eq := by
    rw [htimeouts, h.due_eq, deadlines, deadlines, hkind, happ]

theorem leave (h : Scheduled machine seen entered) (kind : ρ) (store : Store) :
    Scheduled (machine.leave kind store) seen entered :=
  ⟨h.last_eq, h.entered_le, h.awaits, fun _ hkind => absurd rfl hkind, rfl⟩

section Rounds
variable [RoundBehavior σ P ε]

/-- The machine is still in the same round, or it has just entered one. -/
def Kept (machine : Machine ρ ε κ σ) (seen : List Duration) (entered : Nat)
    (after : Machine ρ ε κ σ) : Prop :=
  after.height = machine.height ∧ Scheduled after seen entered ∨
    after.height ≠ machine.height ∧ Scheduled after seen seen.length

theorem eventOutcome {event : ε} {result : Option Store} {answer : Except Error Unit}
    (h : Scheduled machine seen entered) (houtcome : EventOutcome machine event result answer after) :
    Kept machine seen entered after := by
  cases houtcome with
  | ignored => exact .inl ⟨rfl, h⟩
  | stopped => exact .inl ⟨rfl, h.leave _ _⟩
  | refused => exact .inl ⟨rfl, h⟩
  | moved _ _ _ hheight henter =>
    have hscheduled := Scheduled.enter henter h.last_eq
    obtain ⟨timeouts, rfl, _⟩ := enter_exactly henter
    exact .inr ⟨Word.ne_of_succ hheight, hscheduled⟩

/-! ## Timestamps that are seen -/

theorem pendingAt_eq (h : Scheduled machine seen entered) (now : Duration) :
    machine.pendingAt now = machine.deadlines (countedFrom (seen ++ [now]) entered) := by
  by_cases hawaits : machine.awaitsTime = true
  · obtain rfl := h.awaits hawaits
    obtain rfl := Nat.le_zero.1 h.entered_le
    rw [pendingAt, if_pos hawaits]
    rfl
  · rw [pendingAt, if_neg hawaits, h.due_eq]
    by_cases hseen : seen = []
    · have hstopped : machine.currentKind = none :=
        Classical.byContradiction fun hkind => hawaits (h.waiting hseen hkind)
      rw [deadlines_of_stopped hstopped, deadlines_of_stopped hstopped]
    · rw [countedFrom_append hseen h.entered_le]

theorem stamp {now : Duration} {answer : Except Error (Option ε)}
    (h : Scheduled machine seen entered) (htime : machine.updateTime now = .ok (answer, after)) :
    ∃ timeouts, let stamped := { machine with
        timeouts := timeouts
        awaitsTime := false
        lastTimestamp := some now }
      Scheduled stamped (seen ++ [now]) entered ∧ stamped.expire now = .ok (answer, after) := by
  have hwaits : machine.awaitsTime = true → machine.timeouts.due = [] := by
    intro hawaits
    -- nothing has been pending, as no timestamp has been seen
    obtain rfl := h.awaits hawaits
    obtain rfl := Nat.le_zero.1 h.entered_le
    exact h.due_eq.trans machine.deadlines_none
  obtain ⟨timeouts, hscheduled, hexpire⟩ := exists_expire htime
  refine ⟨timeouts, ⟨?_, ?_, nofun, ?_, (hscheduled.due_eq hwaits).trans (h.pendingAt_eq now)⟩,
    hexpire⟩
  · rw [List.getLast?_concat]
  · rw [List.length_append]
    exact Nat.le_add_right_of_le h.entered_le
  · intro hnil
    exact absurd hnil (by simp)

end Rounds

end Scheduled

/-! ## Timeouts that fire -/

section Firing
variable [RoundBehavior σ P ε]

/-- Whatever follows the current round can be built from its store. -/
def CanLeave (machine : Machine ρ ε κ σ) : Prop :=
  ∀ kind round event next, machine.current = some (kind, round) →
    machine.app.transitions.next? kind event = some next →
      ∃ successor, machine.build next (RoundBehavior.store round) = .ok successor

/-- A round hands on its store on any event, and what it has decided on its own. -/
def HandsOn (round : σ) (event : ε) (store : Store) : Prop :=
  store = RoundBehavior.store round ∨
    ∃ after, RoundBehavior.endBlock round = .ok (some (store, event), after)

/-- The round that follows can be built from whatever a round hands on. -/
def NeverStuck (start : Machine ρ ε κ σ) : Prop :=
  ∀ machine : Machine ρ ε κ σ, Reachable start machine →
    ∀ kind round event store next, machine.current = some (kind, round) →
      HandsOn round event store → machine.app.transitions.next? kind event = some next →
        ∃ successor, machine.build next store = .ok successor

/-- The machine sees a timestamp when these deadlines are pending. -/
inductive Expires (machine : Machine ρ ε κ σ) (now : Duration) (pending : List (Nat × ε)) :
    Option ε → Machine ρ ε κ σ → Prop where
  | nothing {after : Machine ρ ε κ σ} (hlater : ∀ entry ∈ pending, now.nanos < entry.1)
    (hcurrent : after.current = machine.current) (hhistory : after.history = machine.history)
    (hpending : after.timeouts.due = pending) : Expires machine now pending none after
  | fires {kind next : ρ} {round successor : σ} {deadline : Nat} {event : ε}
    {after : Machine ρ ε κ σ} (hcurrent : machine.current = some (kind, round))
    (hleast : Timeouts.Least (deadline, event) pending) (hdue : deadline ≤ now.nanos)
    (hnext : machine.app.transitions.next? kind event = some next)
    (hentered : after.current = some (next, successor))
    (hhistory : after.history = machine.history ++ [(kind, RoundBehavior.store round)])
    (hpending : after.timeouts.due = machine.app.deadlines next now) :
    Expires machine now pending (some event) after

/-- The round of the event that is due has a successor, which is entered at once. -/
theorem Scheduled.expire [Std.LawfulEqOrd ε] {now : Duration}
    {answer : Except Error (Option ε)} (h : Scheduled machine seen entered)
    (hlast : seen.getLast? = some now) (hbuilds : machine.CanLeave)
    (hexpire : machine.expire now = .ok (answer, after)) :
    (∃ fired, answer = .ok fired ∧
      Expires machine now (machine.deadlines (countedFrom seen entered)) fired after) ∧
    Kept machine seen entered after := by
  rw [Machine.expire] at hexpire
  rw [← h.due_eq]
  split at hexpire
  case h_1 _ hpop =>
    cases hexpire
    have hlater := Timeouts.popExpired_eq_none hpop
    exact ⟨⟨none, rfl, .nothing hlater rfl rfl rfl⟩, .inl ⟨rfl, h⟩⟩
  case h_2 deadline event rest hpop =>
    have hincrease := machine.deadlines_increase (countedFrom seen entered)
    rw [← h.due_eq] at hincrease
    obtain ⟨hdue, hleast⟩ := Timeouts.popExpired_eq_some hincrease hpop
    have hmem := hleast.1
    rw [h.due_eq] at hmem
    obtain ⟨kind, round, next, hcurrent, hnext⟩ := exists_next_of_mem_deadlines hmem
    obtain ⟨successor, hbuild⟩ := hbuilds kind round event next hcurrent hnext
    obtain ⟨moved, rfl, houtcome⟩ := fire_outcome hexpire
    obtain ⟨rfl, height, hheight, henter⟩ := houtcome.of_build hcurrent hnext hbuild
    have hscheduled := Scheduled.enter henter h.last_eq
    obtain ⟨timeouts, rfl, hpending⟩ := enter_exactly henter
    refine ⟨⟨some event, rfl, .fires hcurrent (h.due_eq ▸ hleast) hdue hnext rfl rfl ?_⟩,
      .inr ⟨Word.ne_of_succ hheight, hscheduled⟩⟩
    have hnow : machine.lastTimestamp = some now := h.last_eq.trans hlast
    rw [hpending]
    exact (congrArg _ hnow).trans (deadlines_some rfl now)

/-- The state before the timestamp may still have deadlines to schedule. -/
theorem Scheduled.updateTime [Std.LawfulEqOrd ε] {now : Duration}
    {answer : Except Error (Option ε)} (h : Scheduled machine seen entered)
    (hbuilds : machine.CanLeave)
    (htime : machine.updateTime now = .ok (answer, after)) :
    (∃ fired, answer = .ok fired ∧
      Expires machine now (machine.deadlines (countedFrom (seen ++ [now]) entered)) fired after) ∧
    Kept machine (seen ++ [now]) entered after := by
  obtain ⟨timeouts, hstamped, hexpire⟩ := h.stamp htime
  obtain ⟨⟨fired, hanswer, hexpires⟩, hkept⟩ :=
    hstamped.expire List.getLast?_concat hbuilds hexpire
  refine ⟨⟨fired, hanswer, ?_⟩, hkept⟩
  cases hexpires with
  | nothing hlater hcurrent hhistory hpending => exact .nothing hlater hcurrent hhistory hpending
  | fires hcurrent hleast hdue hnext hentered hhistory hpending =>
    exact .fires hcurrent hleast hdue hnext hentered hhistory hpending

/-! ## Runs -/

theorem Scheduled.outcome [Std.LawfulEqOrd ε] {call : Call ε P}
    {answer : Except Error (Option ε)} (h : Scheduled machine seen entered)
    (hbuilds : machine.CanLeave) (hask : machine.ask call = .ok (answer, after)) :
    Enters call (answer.map fun _ => ()) machine after ∧
        Scheduled after (seen ++ call.timestamps) (seen ++ call.timestamps).length ∨
      ¬ Enters call (answer.map fun _ => ()) machine after ∧
        Scheduled after (seen ++ call.timestamps) entered := by
  have hsplit : ∀ {seen}, Kept machine seen entered after →
      after.height ≠ machine.height ∧ Scheduled after seen seen.length ∨
        ¬ after.height ≠ machine.height ∧ Scheduled after seen entered := by
    intro seen hkept
    rcases hkept with ⟨hheight, hsame⟩ | hmoved
    · exact .inr ⟨not_not_intro hheight, hsame⟩
    · exact .inl hmoved
  have hnothing : seen ++ [] = seen := List.append_nil seen
  cases ask_outcome hask with
  | unbuilt =>
    exact .inr ⟨nofun, hnothing.symm ▸ h.same rfl rfl rfl rfl rfl⟩
  | setUp _ henter => exact .inl ⟨rfl, hnothing.symm ▸ .enter henter h.last_eq⟩
  | unheard | unasked => exact hsplit (.inl ⟨rfl, hnothing.symm ▸ h⟩)
  | processed hcurrent | undecided hcurrent =>
    have hkind := (currentKind_of_current hcurrent).symm
    exact hsplit (.inl ⟨rfl, hnothing.symm ▸ h.same rfl hkind rfl rfl rfl⟩)
  | event hevent => exact hsplit (hnothing.symm ▸ h.eventOutcome hevent)
  | @decided kind _ asked _ _ _ _ hcurrent _ hevent =>
    have hasked : Scheduled { machine with current := some (kind, asked) } seen entered :=
      h.same rfl (currentKind_of_current hcurrent).symm rfl rfl rfl
    exact hsplit (hnothing.symm ▸ hasked.eventOutcome hevent)
  | stamped | expired => exact hsplit (h.updateTime hbuilds hask).2
  | cleaned => exact hsplit (.inl ⟨rfl, hnothing.symm ▸ h.same rfl rfl rfl rfl rfl⟩)

theorem Scheduled.call [Std.LawfulEqOrd ε] {call : Call ε P} {answer : Except Error Unit}
    (h : Scheduled machine seen entered) (hbuilds : machine.CanLeave)
    (hcall : machine.call call = .ok (answer, after)) :
    Enters call answer machine after ∧
        Scheduled after (seen ++ call.timestamps) (seen ++ call.timestamps).length ∨
      ¬ Enters call answer machine after ∧ Scheduled after (seen ++ call.timestamps) entered := by
  obtain ⟨fired, hask, rfl⟩ := ask_of_call hcall
  exact h.outcome hbuilds hask

theorem NeverStuck.canLeave (h : NeverStuck start) (hmachine : Reachable start machine) :
    machine.CanLeave :=
  fun kind round event next hcurrent hnext =>
    h machine hmachine kind round event _ next hcurrent (.inl rfl) hnext

/-- A new machine is in no round, and nothing is pending. -/
theorem scheduled_ofApplication [Named ρ] {app : Application ρ ε κ σ}
    {setup : SortedMap String Value} {config : Config ρ} {registry : Registry κ}
    (h : ofApplication app setup config registry = .ok start) : Scheduled start [] 0 := by
  rw [ofApplication_eq_ok h]
  exact ⟨rfl, Nat.le_refl _, fun _ => rfl, fun _ hkind => absurd rfl hkind, rfl⟩

theorem Clocked.scheduled [Std.LawfulEqOrd ε] [Named ρ] {app : Application ρ ε κ σ}
    {setup : SortedMap String Value} {config : Config ρ} {registry : Registry κ}
    (hstart : ofApplication app setup config registry = .ok start) (hnever : NeverStuck start)
    (h : Clocked start machine seen entered) : Scheduled machine seen entered := by
  -- A call either enters a round or it does not: `Scheduled.call` says which, as does `Clocked`.
  induction h with
  | start => exact scheduled_ofApplication hstart
  | entered hmachine hcall henters ih =>
    rcases ih.call (hnever.canLeave hmachine.reachable) hcall with hentered | hstayed
    · exact hentered.2
    · exact absurd henters hstayed.1
  | stayed hmachine hcall hstays ih =>
    rcases ih.call (hnever.canLeave hmachine.reachable) hcall with hentered | hstayed
    · exact absurd hentered.1 hstays
    · exact hstayed.2

end Firing

end Machine

end QuorumRounds
