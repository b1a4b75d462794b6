import QuorumRounds.Proofs.PriceOracle.Sound

/-! # Timeouts of the price oracle -/

namespace QuorumRounds.PriceOracle
set_option autoImplicit false

open Machine (Clocked NeverStuck Expires countedFrom countedFrom_append)

/-- Whatever is called, and in whatever order the timestamps come: what is pending are the deadlines
of the current round, and a timestamp fires the least of them that is due. The price oracle is an
application that is never stuck. -/
theorem pending_timeouts_are_those_of_the_round :
    (∀ {ρ ε κ σ P : Type} [Ord ρ] [Ord ε] [Ord κ] [RoundBehavior σ P ε] [Std.LawfulEqOrd ε]
      [Named ρ] (app : Application ρ ε κ σ) (setup : SortedMap String Value) (config : Config ρ)
      (registry : Registry κ) (start : Machine ρ ε κ σ),
      Machine.ofApplication app setup config registry = .ok start → NeverStuck start →
      ∀ machine seen entered, Clocked start machine seen entered →
        machine.timeouts.due = machine.deadlines (countedFrom seen entered) ∧
        ∀ now answer after, machine.updateTime now = .ok (answer, after) →
          ∃ fired, answer = .ok fired ∧
            Expires machine now (machine.deadlines (countedFrom (seen ++ [now]) entered)) fired
              after) ∧
    ∀ (settings : Settings) (setup : SortedMap String Value) (config : Config RoundKind)
      (registry : Registry Kind) (start : OracleMachine),
      Machine.ofApplication settings.application setup config registry = .ok start →
        NeverStuck start := by
  constructor
  · intro ρ ε κ σ P _ _ _ _ _ _ app setup config registry start hstart hnever machine seen entered
      hclocked
    have hscheduled := hclocked.scheduled hstart hnever
    have hcan := hnever.canLeave hclocked.reachable
    exact ⟨hscheduled.due_eq, fun now answer after htime => (hscheduled.updateTime hcan htime).1⟩
  · intro settings setup config registry start hstart machine hmachine kind round event store next
      hcurrent hstore _
    have hupholds : Machine.Upholds settings.application Round.Sound start :=
      .ofApplication hstart
    exact neverStuck (hupholds.reachable (soundness settings) hmachine) hcurrent hstore

set_option synthInstance.maxSize 1000 in
/-- The timeout of the round that follows the registrations is due after thirty more seconds, and the
reset that it leads to counts from when it has fired. -/
theorem pending_timeouts_of_four :
    ∃ (start machine after : OracleMachine) (entered : Nat),
      ({} : Settings).machine fourAddresses fourConfig = .ok start ∧
      Clocked start machine [.ofSeconds 5] entered ∧
      machine.timeouts.due = [(35000000000, .roundTimeout)] ∧
      machine.updateTime (.ofSeconds 40) = .ok (.ok (some .roundTimeout), after) ∧
      Expires machine (.ofSeconds 40) [(35000000000, .roundTimeout)] (some .roundTimeout) after ∧
      after.timeouts.due = [(70000000000, .resetTimeout)] := by
  have hrun : (({} : Settings).machine fourAddresses fourConfig).toOption.map (fun start =>
      (start.run registeringCalls).map fun machine =>
        (machine.timeouts.due, (machine.updateTime (.ofSeconds 40)).map fun (answer, after) =>
          (answer.toOption, after.timeouts.due))) =
      some (.ok ([(35000000000, .roundTimeout)],
        .ok (some (some .roundTimeout), [(70000000000, .resetTimeout)]))) := by
    decide +kernel
  obtain ⟨start, machine, hstart, hcalls, hseen⟩ := exists_machine_after hrun
  obtain ⟨hpending, hexpired⟩ := Prod.mk.inj hseen
  obtain ⟨⟨answer, after⟩, htime, heq⟩ := Checked.map_eq_ok_iff.1 hexpired
  obtain ⟨hanswer, hreset⟩ := Prod.mk.inj heq
  obtain rfl := Checked.eq_ok_of_toOption hanswer
  have hfirst : Clocked start start [] 0 := .start
  obtain ⟨entered, hclocked⟩ := hfirst.run hcalls
  obtain ⟨shapes, hnew⟩ := ofApplication_of_machine hstart
  have hnever := pending_timeouts_are_those_of_the_round.2 _ _ _ _ _ hnew
  obtain ⟨hdue, hexpires⟩ :=
    pending_timeouts_are_those_of_the_round.1 _ _ _ _ _ hnew hnever machine _ _ hclocked
  obtain ⟨fired, hfired, hexpires⟩ := hexpires _ _ _ htime
  cases hfired
  rw [countedFrom_append (by decide) (hclocked.scheduled hnew hnever).entered_le, ← hdue,
    hpending] at hexpires
  exact ⟨start, machine, after, entered, hstart, hclocked, hpending, htime, hexpires, hreset⟩

end QuorumRounds.PriceOracle
