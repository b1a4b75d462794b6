import QuorumRounds.Proofs.Machine.Calls

/-! # Machines that have stopped

A machine is in no round until it is set up for the first time, and again when a round has ended on an
event that has no edge (`StopsOn`). Nothing is pending then (`Stopped`). Until the next setup, calls
record timestamps and drop what is remembered of the rounds, and do nothing else (`Stopped.run`).

A timeout is pending only on an event that leads out of the current round (`Pends`). So a timeout
never stops a machine, and no timeout is pending in a final round. -/

namespace QuorumRounds.Machine
set_option autoImplicit false

variable {ρ ε κ σ P : Type} [Ord ρ] [Ord ε] [Ord κ] {start machine after : Machine ρ ε κ σ}

structure Stopped (machine : Machine ρ ε κ σ) : Prop where
  current_eq : machine.current = none
  timeouts_eq : machine.timeouts = ∅

theorem stopped_leave (machine : Machine ρ ε κ σ) (kind : ρ) (store : Store) :
    (machine.leave kind store).Stopped := ⟨rfl, rfl⟩

/-- A timestamp that nothing waits for. Also a machine that has stopped before it has seen any is told
that its timeouts need not wait any longer. -/
def stamp (machine : Machine ρ ε κ σ) (now : Duration) : Machine ρ ε κ σ :=
  { machine with awaitsTime := false, lastTimestamp := some now }

theorem Stopped.stamp (h : machine.Stopped) (now : Duration) : (machine.stamp now).Stopped :=
  ⟨h.current_eq, h.timeouts_eq⟩

theorem Stopped.cleanup (h : machine.Stopped) (depth : Nat) : (machine.cleanup depth).Stopped :=
  ⟨h.current_eq, h.timeouts_eq⟩

/-! ## Calls on a machine that has stopped -/

namespace Stopped
variable [RoundBehavior σ P ε]

theorem checkTransaction (h : machine.Stopped) (tx : Transaction P) :
    machine.checkTransaction tx = .ok (.error (.internal .noActiveRound)) := by
  simp only [Machine.checkTransaction, h.current_eq]

theorem processTransaction (h : machine.Stopped) (tx : Transaction P) :
    machine.processTransaction tx = .ok (.error (.internal .noActiveRound), machine) := by
  simp only [Machine.processTransaction, h.current_eq]

theorem processEvent (h : machine.Stopped) (event : ε) (result : Option Store) :
    machine.processEvent event result = .ok (.ok (), machine) := by
  simp only [Machine.processEvent, h.current_eq]

theorem endBlock (h : machine.Stopped) : machine.endBlock = .ok (.ok none, machine) := by
  simp only [Machine.endBlock, h.current_eq]

theorem updateTime (h : machine.Stopped) (now : Duration) :
    machine.updateTime now = .ok (.ok none, machine.stamp now) := by
  have hexpire : (machine.stamp now).expire now = .ok (.ok none, machine.stamp now) := by
    have hpop : (machine.stamp now).timeouts.popExpired now = (none, ∅) := by
      rw [(h.stamp now).timeouts_eq]
      rfl
    rw [expire, hpop]
  rw [updateTime_eq]
  by_cases hawaits : machine.awaitsTime = true
  · have hscheduled : scheduleTimeouts { machine with lastTimestamp := some now } now =
        .ok (machine.stamp now) := by
      rw [scheduleTimeouts, h.current_eq, Machine.stamp, h.current_eq]
    rw [if_pos hawaits, hscheduled, Checked.ok_bind]
    exact hexpire
  · have hsame : { machine with lastTimestamp := some now } = machine.stamp now := by
      rw [Machine.stamp, Bool.eq_false_iff.2 hawaits]
    rw [if_neg hawaits, hsame]
    exact hexpire

end Stopped

/-! ## Runs without a setup -/

/-- What is left of a call when no round is running. -/
def Call.onStopped (machine : Machine ρ ε κ σ) : Call ε P → Machine ρ ε κ σ
  | .updateTime now => machine.stamp now
  | .cleanup depth => machine.cleanup depth
  | _ => machine

/-- Only a cleanup drops what is remembered. -/
def Call.trims (history : List (ρ × Store)) : Call ε P → List (ρ × Store)
  | .cleanup depth => lastItems depth history
  | _ => history

theorem Stopped.onStopped (h : machine.Stopped) (call : Call ε P) :
    (call.onStopped machine).Stopped := by
  cases call with
  | setup | processTransaction | processEvent | endBlock => exact h
  | updateTime now => exact h.stamp now
  | cleanup depth => exact h.cleanup depth

theorem Stopped.foldl (h : machine.Stopped) (calls : List (Call ε P)) :
    (calls.foldl Call.onStopped machine).Stopped := by
  induction calls generalizing machine with
  | nil => exact h
  | cons call rest ih => exact ih (h.onStopped call)

theorem foldl_onStopped (machine : Machine ρ ε κ σ) (calls : List (Call ε P)) :
    ∃ awaitsTime last, calls.foldl Call.onStopped machine =
      { machine with
        history := calls.foldl Call.trims machine.history
        awaitsTime := awaitsTime
        lastTimestamp := last } := by
  induction calls generalizing machine with
  | nil => exact ⟨_, _, rfl⟩
  | cons call rest ih =>
    obtain ⟨awaitsTime, last, hrest⟩ := ih (call.onStopped machine)
    rw [List.foldl_cons, hrest, List.foldl_cons]
    cases call with
    | setup | processTransaction | processEvent | endBlock => exact ⟨_, _, rfl⟩
    | updateTime now => exact ⟨_, _, rfl⟩
    | cleanup depth => exact ⟨_, _, rfl⟩

section Runs
variable [RoundBehavior σ P ε]

theorem Stopped.call (h : machine.Stopped) {call : Call ε P} (hcall : call ≠ .setup) :
    (machine.call call).map (·.2) = .ok (call.onStopped machine) := by
  cases call with
  | setup => exact absurd rfl hcall
  | processTransaction tx =>
    rw [Machine.call, h.processTransaction]
    rfl
  | processEvent event result =>
    rw [Machine.call, h.processEvent]
    rfl
  | endBlock =>
    rw [Machine.call, h.endBlock]
    rfl
  | updateTime now =>
    rw [Machine.call, h.updateTime]
    rfl
  | cleanup depth => rfl

theorem Stopped.run (h : machine.Stopped) {calls : List (Call ε P)}
    (hcalls : ∀ call ∈ calls, call ≠ .setup) :
    machine.run calls = .ok (calls.foldl Call.onStopped machine) := by
  induction calls generalizing machine with
  | nil => rfl
  | cons call rest ih =>
    obtain ⟨hcall, hrest⟩ := List.forall_mem_cons.1 hcalls
    rw [Machine.run, List.foldlM_cons, h.call hcall]
    exact ih (h.onStopped call) hrest

/-- What can be seen of a machine that has stopped, when calls have been made on it since, and how it
answers. -/
structure Inert (stopped : Machine ρ ε κ σ) (calls : List (Call ε P)) (machine : Machine ρ ε κ σ) :
    Prop where
  checkTransaction : ∀ tx : Transaction P,
    machine.checkTransaction tx = .ok (.error (.internal .noActiveRound))
  processTransaction : ∀ tx : Transaction P,
    machine.processTransaction tx = .ok (.error (.internal .noActiveRound), machine)
  processEvent : ∀ event result, machine.processEvent event result = .ok (.ok (), machine)
  endRound : ∀ event, machine.endRound event = .ok (.ok (), machine)
  endBlock : machine.endBlock = .ok (.ok none, machine)
  updateTime : ∀ now, machine.updateTime now = .ok (.ok none, machine.stamp now)
  timeouts_eq : machine.timeouts = ∅
  finished : machine.isFinished = true
  kind_eq : machine.currentKind = stopped.currentKind
  height_eq : machine.height = stopped.height
  store_eq : machine.store = stopped.store
  history_eq : machine.history = calls.foldl Call.trims stopped.history

theorem Stopped.inert {stopped : Machine ρ ε κ σ} (h : stopped.Stopped) (calls : List (Call ε P)) :
    Inert stopped calls (calls.foldl Call.onStopped stopped) := by
  have hstopped := h.foldl calls
  obtain ⟨awaitsTime, last, heq⟩ := foldl_onStopped stopped calls
  rw [heq] at hstopped ⊢
  exact
    { checkTransaction := hstopped.checkTransaction
      processTransaction := hstopped.processTransaction
      processEvent := hstopped.processEvent
      endRound := fun event => hstopped.processEvent event none
      endBlock := hstopped.endBlock
      updateTime := hstopped.updateTime
      timeouts_eq := hstopped.timeouts_eq
      finished := by rw [isFinished, hstopped.current_eq, Option.isNone_none]
      kind_eq := rfl
      height_eq := rfl
      store_eq := rfl
      history_eq := rfl }

end Runs

/-! ## What is pending -/

/-- The pending timeouts lead out of the current round; without one nothing is pending. -/
structure Pends (app : Application ρ ε κ σ) (machine : Machine ρ ε κ σ) : Prop where
  app_eq : machine.app = app
  stopped : machine.current = none → machine.timeouts = ∅
  running : ∀ kind round, machine.current = some (kind, round) →
    machine.timeouts.Among (app.timeoutEvents kind)

namespace Pends
variable [RoundBehavior σ P ε] {app : Application ρ ε κ σ} {kind : ρ} {round : σ}

omit [RoundBehavior σ P ε] in
theorem of_some (happ : machine.app = app) (hcurrent : machine.current = some (kind, round))
    (hamong : machine.timeouts.Among (app.timeoutEvents kind)) : Pends app machine where
  app_eq := happ
  stopped hnone := by cases hcurrent.symm.trans hnone
  running kind' round' hcurrent' := by
    cases hcurrent.symm.trans hcurrent'
    exact hamong

omit [RoundBehavior σ P ε] in
theorem enter (henter : machine.enter kind round = .ok after) (happ : machine.app = app) :
    Pends app after := by
  obtain ⟨timeouts, awaitsTime, hamong, rfl⟩ := enter_eq_ok henter
  exact of_some happ rfl (happ ▸ hamong)

theorem eventOutcome (h : Pends app machine) {event : ε} {result : Option Store}
    {answer : Except Error Unit} (houtcome : EventOutcome machine event result answer after) :
    Pends app after := by
  cases houtcome with
  | ignored => exact h
  | stopped => exact ⟨h.app_eq, fun _ => rfl, nofun⟩
  | refused => exact h
  | moved _ _ _ _ henter => exact enter henter h.app_eq

omit [RoundBehavior σ P ε] in
/-- The timestamp may schedule timeouts of the current round, and then take one of them out. -/
theorem stamped (h : Pends app machine) {now : Duration} {timeouts rest : Timeouts ε}
    {expired : Option (Duration × ε)} (hscheduled : machine.SchedulesAt now timeouts)
    (hpop : timeouts.popExpired now = (expired, rest)) :
    (machine.current = none → timeouts = ∅ ∧ rest = ∅) ∧
      ∀ kind round, machine.current = some (kind, round) →
        timeouts.Among (app.timeoutEvents kind) ∧ rest.Among (app.timeoutEvents kind) := by
  constructor
  · intro hnone
    have hempty : timeouts = ∅ := by
      cases hscheduled with
      | scheduled | stopped => exact h.stopped hnone
      | deferred _ hcurrent => cases hnone.symm.trans hcurrent
    rw [hempty] at hpop ⊢
    exact ⟨rfl, (congrArg Prod.snd hpop).symm⟩
  · intro kind round hcurrent
    have hamong := h.running kind round hcurrent
    rw [← h.app_eq] at hamong ⊢
    have hnew := hscheduled.among hcurrent hamong
    exact ⟨hnew, (hnew.popExpired hpop).1⟩

theorem outcome (h : Pends app machine) {call : Call ε P} {answer : Except Error (Option ε)}
    (houtcome : Outcome machine call answer after) : Pends app after := by
  cases houtcome with
  | unbuilt | cleaned => exact ⟨h.app_eq, h.stopped, h.running⟩
  | unheard | unasked => exact h
  | setUp _ henter => exact enter henter h.app_eq
  | processed hcurrent | undecided hcurrent =>
    exact of_some h.app_eq rfl (h.running _ _ hcurrent)
  | event hevent => exact h.eventOutcome hevent
  | decided hcurrent _ hevent =>
    refine eventOutcome ?_ hevent
    exact of_some h.app_eq rfl (h.running _ _ hcurrent)
  | stamped hscheduled _ =>
    obtain ⟨hstopped, hrunning⟩ := h.stamped hscheduled rfl
    exact ⟨h.app_eq, fun hnone => (hstopped hnone).1,
      fun kind round hcurrent => (hrunning kind round hcurrent).1⟩
  | expired hscheduled hpop hevent =>
    obtain ⟨hstopped, hrunning⟩ := h.stamped hscheduled hpop
    refine eventOutcome ?_ hevent
    exact ⟨h.app_eq, fun hnone => (hstopped hnone).2,
      fun kind round hcurrent => (hrunning kind round hcurrent).2⟩

theorem of_reachable [Named ρ] {setup : SortedMap String Value} {config : Config ρ}
    {registry : Registry κ} (hstart : ofApplication app setup config registry = .ok start)
    (h : Reachable start machine) : Pends app machine := by
  induction h with
  | start =>
    rw [ofApplication_eq_ok hstart]
    exact ⟨rfl, fun _ => rfl, nofun⟩
  | called _ hcall ih =>
    obtain ⟨_, houtcome, _⟩ := call_outcome hcall
    exact ih.outcome houtcome

end Pends

/-! ## Final rounds -/

theorem eventsFrom_of_final [Named ρ] {app : Application ρ ε κ σ} {setup : SortedMap String Value}
    {config : Config ρ} {registry : Registry κ} {kind : ρ}
    (hstart : ofApplication app setup config registry = .ok start) (hkind : kind ∈ app.finals.toList) :
    app.transitions.eventsFrom kind = [] := by
  rw [ofApplication] at hstart
  split at hstart
  case h_1 => cases hstart
  case h_2 hfind =>
    have hempty := List.find?_eq_none.1 hfind kind hkind
    simpa using hempty

/-- No event is pending that does not lead anywhere. -/
theorem Pends.timeouts_of_final {app : Application ρ ε κ σ} {kind : ρ} {round : σ}
    (h : Pends app machine) (hevents : app.transitions.eventsFrom kind = [])
    (hcurrent : machine.current = some (kind, round)) : machine.timeouts = ∅ := by
  have hnone : app.timeoutEvents kind = [] := by
    rw [Application.timeoutEvents, hevents, List.filter_nil]
  have hamong := h.running kind round hcurrent
  rw [hnone] at hamong
  have hentries : machine.timeouts.entries = [] :=
    List.eq_nil_iff_forall_not_mem.2 fun entry hentry => List.not_mem_nil (hamong entry hentry)
  exact congrArg Timeouts.mk hentries

/-! ## Rounds that end on an event without an edge -/

section Ends
variable [RoundBehavior σ P ε]

theorem EventOutcome.of_no_edge {event : ε} {result : Option Store} {answer : Except Error Unit}
    {kind : ρ} {round : σ} (h : EventOutcome machine event result answer after)
    (hcurrent : machine.current = some (kind, round))
    (hedge : machine.app.transitions.next? kind event = none) :
    answer = .ok () ∧ after = machine.leave kind (result.getD (RoundBehavior.store round)) := by
  cases h with
  | ignored hcurrent' => cases hcurrent.symm.trans hcurrent'
  | stopped hcurrent' hnext =>
    cases hcurrent.symm.trans hcurrent'
    exact ⟨rfl, rfl⟩
  | refused hcurrent' hnext | moved hcurrent' hnext =>
    cases hcurrent.symm.trans hcurrent'
    cases hedge.symm.trans hnext

/-- The current round ends on the event, from outside, on its own decision or on a timeout, and the
event does not lead anywhere. -/
inductive StopsOn (machine : Machine ρ ε κ σ) (event : ε) : Machine ρ ε κ σ → Prop where
  | processed {kind : ρ} {round : σ} {result : Option Store} {answer : Except Error Unit}
    {stopped : Machine ρ ε κ σ} (hcurrent : machine.current = some (kind, round))
    (hedge : machine.app.transitions.next? kind event = none)
    (hevent : machine.processEvent event result = .ok (answer, stopped)) :
    StopsOn machine event stopped
  | decided {kind : ρ} {round asked : σ} {store : Store} {answer : Except Error (Option ε)}
    {stopped : Machine ρ ε κ σ} (hcurrent : machine.current = some (kind, round))
    (hedge : machine.app.transitions.next? kind event = none)
    (hdecided : RoundBehavior.endBlock round = .ok (some (store, event), asked))
    (hend : machine.endBlock = .ok (answer, stopped)) : StopsOn machine event stopped
  | timedOut {kind : ρ} {round : σ} {now : Duration} {stopped : Machine ρ ε κ σ}
    (hcurrent : machine.current = some (kind, round))
    (hedge : machine.app.transitions.next? kind event = none)
    (htime : machine.updateTime now = .ok (.ok (some event), stopped)) :
    StopsOn machine event stopped

theorem StopsOn.stopped {event : ε} (h : StopsOn machine event after) : after.Stopped := by
  cases h with
  | processed hcurrent hedge hevent =>
    obtain ⟨_, rfl⟩ := (processEvent_outcome hevent).of_no_edge hcurrent hedge
    exact stopped_leave _ _ _
  | decided hcurrent hedge hdecided hend =>
    obtain ⟨outcome, asked, hasked, hcases⟩ := endBlock_eq_ok hcurrent hend
    cases hdecided.symm.trans hasked
    rcases hcases with ⟨hnone, _⟩ | ⟨store, event, heq, hfire⟩
    · cases hnone
    · cases heq
      obtain ⟨moved, _, houtcome⟩ := fire_outcome hfire
      obtain ⟨_, rfl⟩ := houtcome.of_no_edge rfl hedge
      exact stopped_leave _ _ _
  | timedOut hcurrent hedge htime =>
    obtain ⟨_, _, _, _, moved, _, _, hanswer, hevent⟩ := expired_of_updateTime htime nofun
    cases moved <;> cases hanswer
    obtain ⟨_, rfl⟩ := hevent.of_no_edge hcurrent hedge
    exact stopped_leave _ _ _

end Ends

end QuorumRounds.Machine
