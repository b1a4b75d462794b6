import QuorumRounds.Proofs.Machine.Deadlines
import QuorumRounds.Replica.Numbered

/-! # Steps that do not overflow

A step overflows when the height of the machine does, when a deadline does, or when the current round
does. Each lemma says that a step gives a result as long as the next height is a word and every
timeout can still be scheduled (`Machine.Steady`).

Timeouts that are scheduled are numbered, so that those of one deadline expire in their order. The
list of pending timeouts keeps that order without numbers; `Machine.scheduledSince` is how many of them
a step has used up: those that have waited for the first timestamp, and those of a round that has been
entered. Each are no more than one round has (`scheduledSince_of_time`, `scheduledSince_of_end`). -/

namespace QuorumRounds
set_option autoImplicit false

section Applications
variable {ρ ε κ σ : Type} [Ord ρ] [Ord ε] [Ord κ] {app : Application ρ ε κ σ}

/-- Every timeout that is scheduled at this moment has a deadline. -/
def Application.CanSchedule (app : Application ρ ε κ σ) (now : Duration) : Prop :=
  ∀ event span, app.timeouts.get? event = some span → ∃ deadline, now.add span = .ok deadline

theorem Application.length_deadlines (app : Application ρ ε κ σ) (kind : ρ) (since : Duration) :
    (app.deadlines kind since).length = (app.timeoutEvents kind).length := by
  rw [deadlines, timeoutEvents, List.length_filterMap_eq_countP, ← List.countP_eq_length_filter]
  congr 1
  funext event
  rw [deadline?, Option.isSome_map, SortedMap.contains]

theorem Application.CanSchedule.exists_schedule {now : Duration} (h : app.CanSchedule now)
    (timeouts : Timeouts ε) (events : List ε) :
    ∃ scheduled, app.schedule now timeouts events = .ok scheduled := by
  induction events generalizing timeouts with
  | nil => exact ⟨timeouts, rfl⟩
  | cons event rest ih =>
    cases hspan : app.timeouts.get? event with
    | none =>
      simp only [schedule, List.foldlM_cons, hspan, Checked.ok_bind]
      exact ih timeouts
    | some span =>
      obtain ⟨deadline, hdeadline⟩ := h event span hspan
      simp only [schedule, List.foldlM_cons, hspan, hdeadline]
      exact ih (timeouts.schedule deadline event)

end Applications

namespace Machine
variable {ρ ε κ σ : Type} [Ord ρ] [Ord ε] [Ord κ] {machine after : Machine ρ ε κ σ} {kind : ρ}
  {round : σ} {now : Duration}

/-! ## Scheduling -/

theorem exists_scheduleTimeouts (h : machine.app.CanSchedule now) :
    ∃ timeouts, machine.scheduleTimeouts now =
      .ok { machine with timeouts := timeouts, awaitsTime := false } := by
  cases hcurrent : machine.current with
  | none => exact ⟨machine.timeouts, by simp only [scheduleTimeouts, hcurrent]⟩
  | some entry =>
    obtain ⟨timeouts, hscheduled⟩ := h.exists_schedule machine.timeouts
      (machine.app.transitions.eventsFrom entry.1)
    refine ⟨timeouts, ?_⟩
    simp only [scheduleTimeouts, hcurrent]
    exact Checked.map_eq_ok_iff.2 ⟨timeouts, hscheduled, rfl⟩

structure Steady (machine : Machine ρ ε κ σ) : Prop where
  height_lt : machine.height.toNat + 1 < UInt64.size
  canSchedule : ∀ now, machine.lastTimestamp = some now → machine.app.CanSchedule now

theorem exists_enter (h : ∀ now, machine.lastTimestamp = some now → machine.app.CanSchedule now)
    (kind : ρ) (round : σ) : ∃ after, machine.enter kind round = .ok after := by
  rw [enter]
  cases hlast : machine.lastTimestamp with
  | none => exact ⟨_, rfl⟩
  | some now =>
    obtain ⟨timeouts, hscheduled⟩ := exists_scheduleTimeouts (show
      Application.CanSchedule (Machine.app { machine with
        current := some (kind, round), timeouts := ∅, lastTimestamp := some now }) now from h now hlast)
    exact ⟨_, hscheduled⟩

theorem exists_setup_of_canSchedule
    (h : ∀ now, machine.lastTimestamp = some now → machine.app.CanSchedule now) :
    ∃ answer after, machine.setup = .ok (answer, after) := by
  cases hbuild : machine.build machine.app.initial machine.setupStore with
  | error e => exact ⟨_, _, setup_eq_error hbuild⟩
  | ok round =>
    obtain ⟨entered, henter⟩ := exists_enter (show ∀ now,
      machine.cleared.lastTimestamp = some now → _ from h) machine.app.initial round
    refine ⟨.ok (), entered, ?_⟩
    rw [setup_eq_enter hbuild]
    exact Checked.map_eq_ok_iff.2 ⟨entered, henter, rfl⟩

/-! ## Steps -/

section Rounds
variable {P : Type} [RoundBehavior σ P ε]

theorem Steady.exists_processEvent (h : machine.Steady) (event : ε) (result : Option Store) :
    ∃ answer after, machine.processEvent event result = .ok (answer, after) := by
  cases hcurrent : machine.current with
  | none => exact ⟨.ok (), machine, by simp only [processEvent, hcurrent]⟩
  | some entry =>
    obtain ⟨kind, round⟩ := entry
    cases hnext : machine.app.transitions.next? kind event with
    | none => exact ⟨.ok (), _, by simp only [processEvent, hcurrent, hnext]; rfl⟩
    | some next =>
      cases hbuild : machine.build next (result.getD (RoundBehavior.store round)) with
      | error e => exact ⟨.error e, machine, by simp only [processEvent, hcurrent, hnext, hbuild]⟩
      | ok successor =>
        obtain ⟨height, hheight⟩ := Word.exists_succ h.height_lt
        obtain ⟨entered, henter⟩ := exists_enter (show ∀ now, Machine.lastTimestamp
          { machine.leave kind (result.getD (RoundBehavior.store round)) with height := height } =
            some now → _ from h.canSchedule) next successor
        refine ⟨.ok (), entered, ?_⟩
        simp only [processEvent, hcurrent, hnext, hbuild, hheight, Checked.ok_bind]
        exact Checked.bind_eq_ok_iff.2 ⟨entered, henter, rfl⟩

theorem Steady.exists_fire (h : machine.Steady) (event : ε) (result : Option Store) :
    ∃ answer after, machine.fire event result = .ok (answer, after) := by
  obtain ⟨answer, after, hevent⟩ := h.exists_processEvent event result
  exact ⟨answer.map fun _ => some event, after,
    Checked.bind_eq_ok_iff.2 ⟨(answer, after), hevent, rfl⟩⟩

theorem Steady.exists_expire (h : machine.Steady) (now : Duration) :
    ∃ answer after, machine.expire now = .ok (answer, after) := by
  rw [expire]
  split
  · exact ⟨_, _, rfl⟩
  case h_2 event rest _ =>
    have hpopped : Steady { machine with timeouts := rest } := ⟨h.height_lt, h.canSchedule⟩
    exact hpopped.exists_fire event none

theorem exists_updateTime (hheight : machine.height.toNat + 1 < UInt64.size)
    (h : machine.app.CanSchedule now) :
    ∃ answer after, machine.updateTime now = .ok (answer, after) := by
  have hsteady : ∀ timeouts awaitsTime, Steady { machine with
      timeouts := timeouts, awaitsTime := awaitsTime, lastTimestamp := some now } := by
    intro timeouts awaitsTime
    refine ⟨hheight, fun now' hlast => ?_⟩
    cases hlast
    exact h
  rw [updateTime_eq]
  by_cases hawaits : machine.awaitsTime = true
  · obtain ⟨timeouts, hscheduled⟩ := exists_scheduleTimeouts (show
      Application.CanSchedule (Machine.app { machine with lastTimestamp := some now }) now from h)
    rw [if_pos hawaits, hscheduled, Checked.ok_bind]
    exact (hsteady timeouts false).exists_expire now
  · rw [if_neg hawaits]
    exact (hsteady machine.timeouts machine.awaitsTime).exists_expire now

theorem Steady.exists_endBlock (h : machine.Steady)
    (hround : ∀ kind round, machine.current = some (kind, round) →
      ∃ outcome asked, RoundBehavior.endBlock round = .ok (outcome, asked)) :
    ∃ answer after, machine.endBlock = .ok (answer, after) := by
  cases hcurrent : machine.current with
  | none => exact ⟨.ok none, machine, by simp only [endBlock, hcurrent]⟩
  | some entry =>
    obtain ⟨kind, round⟩ := entry
    obtain ⟨outcome, asked, hasked⟩ := hround kind round hcurrent
    cases outcome with
    | none => exact ⟨.ok none, { machine with current := some (kind, asked) },
        by simp only [endBlock, hcurrent, hasked, Checked.ok_bind]; rfl⟩
    | some decided =>
      have hkept : Steady { machine with current := some (kind, asked) } :=
        ⟨h.height_lt, h.canSchedule⟩
      obtain ⟨answer, after, hfire⟩ := hkept.exists_fire decided.2 (some decided.1)
      exact ⟨answer, after, by simp only [endBlock, hcurrent, hasked, Checked.ok_bind]; exact hfire⟩

end Rounds

/-! ## Numbers of timeouts -/

/-- So many numbers a scheduling uses up. -/
theorem size_scheduleTimeouts (h : machine.scheduleTimeouts now = .ok after) :
    after.timeouts.size = machine.timeouts.size + machine.countdowns := by
  have hsize : ∀ timeouts : Timeouts ε, timeouts.size = timeouts.due.length := by
    intro timeouts
    rw [Timeouts.size, Timeouts.due, List.length_map]
  cases hcurrent : machine.current with
  | none =>
    simp only [scheduleTimeouts, hcurrent] at h
    cases h
    rw [countdowns, currentKind, hcurrent]
    rfl
  | some entry =>
    simp only [scheduleTimeouts, hcurrent] at h
    obtain ⟨timeouts, hscheduled, rfl⟩ := Checked.map_eq_ok_iff.1 h
    rw [countdowns, currentKind_of_current hcurrent, hsize, hsize, Application.due_of_schedule hscheduled,
      List.length_append]
    congr 1
    exact machine.app.length_deadlines entry.1 now

/-- A round that is entered has only its own timeouts pending. -/
theorem size_enter (h : machine.enter kind round = .ok after) :
    after.timeouts.size ≤ (machine.app.timeoutEvents kind).length := by
  rw [enter] at h
  cases hlast : machine.lastTimestamp with
  | none =>
    rw [hlast] at h
    cases h
    exact Nat.zero_le _
  | some now =>
    simp only [hlast] at h
    rw [size_scheduleTimeouts h]
    exact Nat.le_of_eq (Nat.zero_add _)

theorem scheduledSince_self (machine : Machine ρ ε κ σ) : machine.scheduledSince machine = 0 := by
  rw [scheduledSince, Bool.and_not_self, if_neg Bool.false_ne_true, if_pos rfl]

variable {most : Nat}

theorem countdowns_le (h : ∀ kind, (machine.app.timeoutEvents kind).length ≤ most) :
    machine.countdowns ≤ most := by
  rw [countdowns]
  split
  · exact Nat.zero_le _
  · exact h _

theorem scheduledSince_le (h : ∀ kind, (machine.app.timeoutEvents kind).length ≤ most)
    (hentered : after.height ≠ machine.height → after.timeouts.size ≤ most) :
    machine.scheduledSince after ≤ 2 * most := by
  have hdeferred := countdowns_le h
  have hfresh : (if after.height = machine.height then 0 else after.timeouts.size) ≤ most := by
    split
    case isTrue => exact Nat.zero_le _
    case isFalse hne => exact hentered hne
  rw [scheduledSince]
  split <;> omega

theorem scheduledBySetup_le (h : ∀ kind, (machine.app.timeoutEvents kind).length ≤ most)
    {answer : Except Error Unit} (hsetup : machine.setup = .ok (answer, after)) :
    after.scheduledBySetup answer ≤ most := by
  rcases setup_cases hsetup with ⟨e, _, rfl, rfl⟩ | ⟨round, _, rfl, henter⟩
  · exact Nat.zero_le _
  · exact Nat.le_trans (size_enter henter) (h _)

section Events
variable {P : Type} [RoundBehavior σ P ε]

theorem EventOutcome.size_le {event : ε} {result : Option Store} {answer : Except Error Unit}
    (houtcome : EventOutcome machine event result answer after)
    (h : ∀ kind, (machine.app.timeoutEvents kind).length ≤ most)
    (hentered : after.height ≠ machine.height) : after.timeouts.size ≤ most := by
  cases houtcome with
  | ignored | stopped | refused => exact absurd rfl hentered
  | moved _ _ _ _ henter => exact Nat.le_trans (size_enter henter) (h _)

theorem scheduledSince_of_time (h : ∀ kind, (machine.app.timeoutEvents kind).length ≤ most)
    {answer : Except Error (Option ε)} (htime : machine.updateTime now = .ok (answer, after)) :
    machine.scheduledSince after ≤ 2 * most := by
  apply scheduledSince_le h
  intro hentered
  have houtcome : Outcome machine (.updateTime now) answer after := ask_outcome htime
  cases houtcome with
  | stamped => exact absurd rfl hentered
  | expired _ _ hevent => exact hevent.size_le h hentered

theorem scheduledSince_of_end (h : ∀ kind, (machine.app.timeoutEvents kind).length ≤ most)
    {answer : Except Error (Option ε)} (hend : machine.endBlock = .ok (answer, after)) :
    machine.scheduledSince after ≤ 2 * most := by
  apply scheduledSince_le h
  intro hentered
  have houtcome : Outcome machine .endBlock answer after := ask_outcome hend
  cases houtcome with
  | unasked | undecided => exact absurd rfl hentered
  | decided _ _ hevent => exact hevent.size_le h hentered

end Events

end Machine

end QuorumRounds
