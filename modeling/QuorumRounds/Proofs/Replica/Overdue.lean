import QuorumRounds.Proofs.Machine.Overdue
import QuorumRounds.Proofs.PriceOracle.Running
import QuorumRounds.Workflow

/-! # Timeouts that are lost

When a timeout is due and the round that it leads to cannot be built, the timestamp is answered with
an error. The current round stays where it is, but its timeout has been taken out before, and no later
timestamp tries the event again (`Machine.Lost`). A replica that could not begin a block for it can
begin the same block again, and then the round goes on as if the timeout had never been. -/

namespace QuorumRounds
set_option autoImplicit false

section Rounds
variable {ρ ε κ σ P : Type} [Ord ρ] [Ord ε] [Ord κ] [RoundBehavior σ P ε]

namespace Machine
variable {start machine after : Machine ρ ε κ σ} {now : Duration} {event : ε}

/-- As long as no round is entered, the event is neither pending nor fires. -/
structure Lost (event : ε) (after : Machine ρ ε κ σ) : Prop where
  never_pending : ∀ {stayed}, Stays after stayed → ∀ time, ∀ entry ∈ stayed.pendingAt time,
    entry.2 ≠ event
  never_fires : ∀ {stayed}, Stays after stayed → ∀ time last,
    stayed.updateTime time ≠ .ok (.ok (some event), last)

theorem Lost.of_not_pending (h : after.Ordered) (hscheduled : after.awaitsTime = false)
    (hnone : ∀ entry ∈ after.timeouts.due, entry.2 ≠ event) : Lost event after := by
  have hpending : ∀ {stayed}, Stays after stayed → ∀ time, ∀ entry ∈ stayed.pendingAt time,
      entry.2 ≠ event := by
    intro stayed hstays time entry hentry
    have hleft := hstays.dwindles h hscheduled
    rw [pendingAt_of_scheduled (hleft.scheduled hscheduled)] at hentry
    exact hnone entry (hleft.sublist.subset hentry)
  refine ⟨hpending, ?_⟩
  intro stayed hstays time last htime
  have hordered := (hstays.dwindles h hscheduled).ordered h.increase
  obtain ⟨entry, hentry, hevent⟩ := updateTime_fires hordered htime
  exact hpending hstays time entry hentry hevent

end Machine

namespace Replica
variable {start machine after : Machine ρ ε κ σ} {now : Duration}

theorem beginBlock_of_error {replica : Replica ρ ε κ σ} {header : BlockHeader} {e : Error}
    (hphase : replica.phase = .idle) (hheight : Word.succ replica.height = .ok header.height)
    (htime : replica.machine.updateTime header.timestamp = .ok (.error e, after)) :
    replica.beginBlock header = .ok (.error e, { replica with machine := after }) := by
  simp only [beginBlock, hphase, hheight, Checked.ok_bind, if_true, htime]
  rfl

/-- The round of a timeout that is due cannot be built. The current round stays, and the timeout is
lost: until a round is entered, only the others that were pending can fire. The block that saw the
timestamp has not begun. -/
theorem failed_timeouts_are_lost [Named ρ] [Std.ReflOrd ε] {app : Application ρ ε κ σ}
    {setup : SortedMap String Value} {config : Config ρ} {registry : Registry κ} {e : Error}
    (hstart : Machine.ofApplication app setup config registry = .ok start)
    (hmachine : Machine.Reachable start machine)
    (htime : machine.updateTime now = .ok (.error e, after)) :
    ∃ kind round next before later, ∃ deadline : Duration, ∃ event,
      machine.current = some (kind, round) ∧ deadline ≤ now ∧
      machine.pendingAt now = before ++ (deadline.nanos, event) :: later ∧
      machine.app.transitions.next? kind event = some next ∧
      machine.build next (RoundBehavior.store round) = .error e ∧
      after = { machine with
        timeouts := after.timeouts, awaitsTime := false, lastTimestamp := some now } ∧
      after.timeouts.due = before ++ later ∧ Machine.Lost event after ∧
      (∀ time, (∀ entry ∈ before ++ later, time.nanos < entry.1) →
        after.updateTime time = .ok (.ok none, { after with lastTimestamp := some time })) ∧
      ∀ (replica : Replica ρ ε κ σ) (header : BlockHeader), replica.machine = machine →
        header.timestamp = now → replica.phase = .idle →
        Word.succ replica.height = .ok header.height →
        replica.beginBlock header = .ok (.error e, { replica with machine := after }) := by
  have hordered := Machine.Ordered.of_reachable hstart hmachine
  obtain ⟨kind, round, next, before, later, deadline, event, hcurrent, hdue, hpending, hnext, hbuild,
    hafter, hleft, hothers⟩ := Machine.updateTime_eq_error hordered htime
  have hscheduled : after.awaitsTime = false := by rw [hafter]
  have hlost : Machine.Lost event after := by
    have hcall : machine.call (.updateTime now) = .ok (.error e, after) := by
      rw [Machine.call, htime]
      rfl
    refine .of_not_pending (.of_reachable hstart (.called hmachine hcall)) hscheduled ?_
    rw [hleft]
    exact hothers
  refine ⟨kind, round, next, before, later, deadline, event, hcurrent, hdue, hpending, hnext, hbuild,
    hafter, hleft, hlost, ?_, ?_⟩
  · intro time hlater
    rw [← hleft] at hlater
    exact Machine.updateTime_of_later hscheduled hlater
  · rintro replica header rfl rfl hphase hheight
    exact beginBlock_of_error hphase hheight htime

end Replica

end Rounds

section Closing
open PriceOracle

namespace Workflow

/-- Prices are agreed on for ten seconds at most. The round that follows needs a quote. -/
def closing : Workflow Kind where
  initial := "open"
  finals := .singleton "closed"
  edges := [("open", "late", "closed")]
  timeouts := .ofList [("late", .ofSeconds 10)]
  rounds := .ofList [("open", plan []), ("closed", plan ["quote"])]
where
  plan (needs : List String) : Plan Kind :=
    { rule := .sameUntilThreshold
      allowed := .estimate
      done := "done"
      noMajority := "no_majority"
      needs := needs
      writes := []
      jammed := false }

def closingMachine? : Option (Machine String String Kind (Round Kind)) :=
  (Machine.ofApplication closing.application (Settings.setupData ["a"])
    (.ofParams aloneConfig.params) ∅).toOption

end Workflow

namespace Replica
open Workflow

set_option synthInstance.maxSize 1000 in
/-- There is no quote when the round is late. -/
theorem closing_run :
    ∃ start entered machine after again : Machine String String Kind (Workflow.Round Kind),
      closingMachine? = some start ∧ start.setup = .ok (.ok (), entered) ∧
      entered.updateTime (.ofSeconds 0) = .ok (.ok none, machine) ∧
      machine.updateTime (.ofSeconds 10) = .ok (.error (.keyNotFound "quote"), after) ∧
      after.updateTime (.ofSeconds 10) = .ok (.ok none, again) ∧
      after.currentKind = some "open" ∧
      machine.pendingAt (.ofSeconds 10) = [(10000000000, "late")] ∧
      after.pendingAt (.ofSeconds 10) = [] := by
  have hrun : (closingMachine?.map fun start => do
      let (answer, entered) ← start.setup
      let (fired, machine) ← entered.updateTime (.ofSeconds 0)
      let (late, after) ← machine.updateTime (.ofSeconds 10)
      let (tried, _) ← after.updateTime (.ofSeconds 10)
      pure (([answer], [fired, late, tried]), after.currentKind,
        [machine.pendingAt (.ofSeconds 10), after.pendingAt (.ofSeconds 10)])) =
      some (.ok (([.ok ()], [.ok none, .error (.keyNotFound "quote"), .ok none]), some "open",
        [[(10000000000, "late")], []])) := by
    decide +kernel
  obtain ⟨start, hnew, hcalls⟩ := Option.map_eq_some_iff.1 hrun
  obtain ⟨⟨answer, entered⟩, hsetup, hcalls⟩ := Checked.bind_eq_ok_iff.1 hcalls
  obtain ⟨⟨fired, machine⟩, htime, hcalls⟩ := Checked.bind_eq_ok_iff.1 hcalls
  obtain ⟨⟨late, after⟩, hlate, hcalls⟩ := Checked.bind_eq_ok_iff.1 hcalls
  obtain ⟨⟨tried, again⟩, hagain, heq⟩ := Checked.bind_eq_ok_iff.1 hcalls
  simp only [Checked.pure_eq_ok, Except.ok.injEq, Prod.mk.injEq, List.cons.injEq, and_true] at heq
  obtain ⟨⟨rfl, rfl, rfl, rfl⟩, hkind, hone, hnone⟩ := heq
  exact ⟨start, entered, machine, after, again, hnew, hsetup, htime, hlate, hagain, hkind, hone, hnone⟩

/-- The block of ten seconds is begun in vain, and nothing is tried again at twenty. -/
theorem failed_timeouts_are_lost_without_quote :
    ∃ start entered machine after : Machine String String Kind (Workflow.Round Kind),
      closingMachine? = some start ∧ start.setup = .ok (.ok (), entered) ∧
      entered.updateTime (.ofSeconds 0) = .ok (.ok none, machine) ∧
      machine.updateTime (.ofSeconds 10) = .ok (.error (.keyNotFound "quote"), after) ∧
      (ofMachine machine).beginBlock ⟨1, .ofSeconds 10⟩ =
        .ok (.error (.keyNotFound "quote"), ofMachine after) ∧
      Machine.Lost "late" after ∧
      after.updateTime (.ofSeconds 20) =
        .ok (.ok none, { after with lastTimestamp := some (.ofSeconds 20) }) := by
  obtain ⟨start, entered, machine, after, _, hnew, hsetup, htime, hlate, _, _, hpending, _⟩ :=
    closing_run
  have hstart := Checked.eq_ok_of_toOption hnew
  have hentered : start.call .setup = .ok (.ok (), entered) := hsetup
  have hseen : entered.call (.updateTime (.ofSeconds 0)) = .ok (.ok (), machine) := by
    rw [Machine.call, htime]
    rfl
  have hreachable : Machine.Reachable start machine := .called (.called .start hentered) hseen
  obtain ⟨kind, round, next, before, later, deadline, event, _, _, hsplit, _, _, _, _, hlost, hlater,
    hblock⟩ := failed_timeouts_are_lost hstart hreachable hlate
  -- the one pending timeout is the one that has been tried
  obtain ⟨rfl, rfl, rfl⟩ : before = [] ∧ later = [] ∧ event = "late" := by
    rw [hpending] at hsplit
    cases before with
    | nil =>
      simp only [List.nil_append, List.cons.injEq, Prod.mk.injEq] at hsplit
      exact ⟨rfl, hsplit.2.symm, hsplit.1.2.symm⟩
    | cons first rest => simp at hsplit
  exact ⟨start, entered, machine, after, hnew, hsetup, htime, hlate,
    hblock (ofMachine machine) ⟨1, .ofSeconds 10⟩ rfl rfl rfl rfl, hlost, hlater _ (by simp)⟩

/-- After the error the round of the timeout is current, and the timeout is not pending any more. The
same timestamp, seen again, is answered without an error. -/
theorem late_round_is_not_closed_again :
    ∃ start entered machine after again : Machine String String Kind (Workflow.Round Kind),
      closingMachine? = some start ∧ start.setup = .ok (.ok (), entered) ∧
      entered.updateTime (.ofSeconds 0) = .ok (.ok none, machine) ∧
      machine.pendingAt (.ofSeconds 10) = [(10000000000, "late")] ∧
      machine.updateTime (.ofSeconds 10) = .ok (.error (.keyNotFound "quote"), after) ∧
      after.currentKind = some "open" ∧ after.pendingAt (.ofSeconds 10) = [] ∧
      after.updateTime (.ofSeconds 10) = .ok (.ok none, again) := by
  obtain ⟨start, entered, machine, after, again, hnew, hsetup, htime, hlate, hagain, hkind, hone,
    hnone⟩ := closing_run
  exact ⟨start, entered, machine, after, again, hnew, hsetup, htime, hone, hlate, hkind, hnone, hagain⟩

end Replica

end Closing

end QuorumRounds
