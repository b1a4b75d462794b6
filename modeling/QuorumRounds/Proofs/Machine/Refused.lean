import QuorumRounds.Proofs.Machine.Calls
import QuorumRounds.Proofs.PriceOracle.Running

/-! # Events that are refused

An event is refused when the round that it leads to cannot be built from the store that is handed on.
Nothing has changed by then. So an event that is refused can be struck out of what has been called on
a machine, and all other calls answer as they have answered (`transcript_without_refused`). -/

namespace QuorumRounds.Machine
set_option autoImplicit false

section Events
variable {ρ ε κ σ P : Type} [Ord ρ] [Ord ε] [Ord κ] [RoundBehavior σ P ε]
  {machine after last : Machine ρ ε κ σ}

/-! ## What calls have answered -/

/-- An event from outside that has been answered with an error. -/
def isRefused : Call ε P × Except Error (Option ε) → Bool
  | (.processEvent _ _, .error _) => true
  | _ => false

theorem transcript_cons {next : Machine ρ ε κ σ} {call : Call ε P}
    {answer : Except Error (Option ε)} (h : machine.ask call = .ok (answer, next))
    (calls : List (Call ε P)) :
    machine.transcript (call :: calls) = (next.transcript calls).map fun (replies, last) =>
      ((call, answer) :: replies, last) := by
  rw [transcript, h]
  change (next.transcript calls >>= fun (replies, last) => .ok ((call, answer) :: replies, last)) = _
  cases next.transcript calls with
  | error e => rfl
  | ok reached => rfl

theorem transcript_cons_eq_ok {call : Call ε P} {calls : List (Call ε P)}
    {replies : List (Call ε P × Except Error (Option ε))}
    (h : machine.transcript (call :: calls) = .ok (replies, last)) :
    ∃ answer next later, machine.ask call = .ok (answer, next) ∧
      next.transcript calls = .ok (later, last) ∧ replies = (call, answer) :: later := by
  obtain ⟨⟨answer, next⟩, hask, hrest⟩ := Checked.bind_eq_ok_iff.1 h
  obtain ⟨⟨later, reached⟩, hlater, heq⟩ := Checked.bind_eq_ok_iff.1 hrest
  cases heq
  exact ⟨answer, next, later, hask, hlater, rfl⟩

/-! ## Events that are refused -/

theorem EventOutcome.error_iff {event : ε} {result : Option Store} {answer : Except Error Unit}
    (h : EventOutcome machine event result answer after) (e : Error) :
    answer = .error e ↔ ∃ kind round next, machine.current = some (kind, round) ∧
      machine.app.transitions.next? kind event = some next ∧
      machine.build next (result.getD (RoundBehavior.store round)) = .error e := by
  constructor
  · rintro rfl
    cases h with
    | refused hcurrent hnext hbuild => exact ⟨_, _, _, hcurrent, hnext, hbuild⟩
  · rintro ⟨kind, round, next, hcurrent, hnext, hbuild⟩
    rcases h.of_edge hcurrent hnext with ⟨e', hfails, hanswer, _⟩ | ⟨successor, height, hbuilt, _⟩
    · cases hbuild.symm.trans hfails
      exact hanswer
    · cases hbuild.symm.trans hbuilt

theorem EventOutcome.eq_of_error {event : ε} {result : Option Store} {e : Error}
    (h : EventOutcome machine event result (.error e) after) : after = machine := by
  cases h with
  | refused => rfl

theorem EventOutcome.ended {event : ε} {result : Option Store} {kind : ρ} {round : σ}
    (h : EventOutcome machine event result (.ok ()) after)
    (hcurrent : machine.current = some (kind, round)) :
    after.history = machine.history ++ [(kind, result.getD (RoundBehavior.store round))] ∧
      after.height.toNat = machine.height.toNat +
        if (machine.app.transitions.next? kind event).isSome then 1 else 0 := by
  cases h with
  | ignored hcurrent' => cases hcurrent.symm.trans hcurrent'
  | stopped hcurrent' hnext =>
    cases hcurrent.symm.trans hcurrent'
    exact ⟨rfl, by simp [hnext, leave]⟩
  | moved hcurrent' hnext hbuild hheight henter =>
    cases hcurrent.symm.trans hcurrent'
    obtain ⟨timeouts, awaitsTime, _, rfl⟩ := enter_eq_ok henter
    exact ⟨rfl, by simpa [hnext] using Word.succ_eq_ok_iff.1 hheight⟩

theorem ask_processEvent {event : ε} {result : Option Store} {answer : Except Error Unit}
    (h : machine.processEvent event result = .ok (answer, after)) :
    machine.ask (.processEvent event result) = .ok (answer.map fun _ => none, after) := by
  change (machine.processEvent event result).map _ = _
  rw [h]
  rfl

theorem ask_eq_of_isRefused {call : Call ε P} {answer : Except Error (Option ε)}
    (h : machine.ask call = .ok (answer, after)) (hrefused : isRefused (call, answer) = true) :
    after = machine := by
  cases call with
  | processEvent event result =>
    obtain ⟨⟨moved, last⟩, hevent, heq⟩ := Checked.map_eq_ok_iff.1 h
    cases moved with
    | error e =>
      cases heq
      exact (processEvent_outcome hevent).eq_of_error
    | ok _ =>
      cases heq
      cases hrefused
  | setup | processTransaction | endBlock | updateTime | cleanup => cases hrefused

/-- The other calls answer the same without the events that have been refused. -/
theorem transcript_without_refused {calls : List (Call ε P)}
    {replies : List (Call ε P × Except Error (Option ε))}
    (h : machine.transcript calls = .ok (replies, last)) :
    machine.transcript ((replies.filter fun reply => !isRefused reply).map (·.1)) =
      .ok (replies.filter fun reply => !isRefused reply, last) := by
  induction calls generalizing machine replies with
  | nil =>
    cases h
    rfl
  | cons call calls ih =>
    obtain ⟨answer, next, later, hask, hlater, rfl⟩ := transcript_cons_eq_ok h
    by_cases hrefused : isRefused (call, answer) = true
    · rw [List.filter_cons_of_neg (by simp [hrefused])]
      rw [ask_eq_of_isRefused hask hrefused] at hlater
      exact ih hlater
    · rw [List.filter_cons_of_pos (by simp [hrefused]), List.map_cons, transcript_cons hask,
        ih hlater]
      rfl

/-- An event does all that it is to do or nothing. It is refused exactly when the round that it leads
to cannot be built, and then the machine is the same and all later calls answer as if it had not been
called. Otherwise the current round is remembered with the store that it hands on, and the height
grows when another round follows. -/
theorem events_are_all_or_nothing {event : ε} {result : Option Store} {answer : Except Error Unit}
    (h : machine.processEvent event result = .ok (answer, after) ∨
      result = none ∧ machine.endRound event = .ok (answer, after)) :
    (∀ e, answer = .error e ↔ ∃ kind round next, machine.current = some (kind, round) ∧
      machine.app.transitions.next? kind event = some next ∧
      machine.build next (result.getD (RoundBehavior.store round)) = .error e) ∧
    (∀ e, answer = .error e → after = machine ∧
      ∀ calls, machine.transcript (.processEvent event result :: calls) =
        (machine.transcript calls).map fun (replies, last) =>
          ((.processEvent event result, .error e) :: replies, last)) ∧
    (answer = .ok () → ∀ kind round, machine.current = some (kind, round) →
      after.history = machine.history ++ [(kind, result.getD (RoundBehavior.store round))] ∧
      after.height.toNat = machine.height.toNat +
        if (machine.app.transitions.next? kind event).isSome then 1 else 0) := by
  have hevent : machine.processEvent event result = .ok (answer, after) := by
    rcases h with h | ⟨rfl, h⟩
    · exact h
    · exact h
  have houtcome := processEvent_outcome hevent
  refine ⟨houtcome.error_iff, ?_, ?_⟩
  · rintro e rfl
    obtain rfl := houtcome.eq_of_error
    exact ⟨rfl, transcript_cons (ask_processEvent hevent)⟩
  · rintro rfl kind round hcurrent
    exact houtcome.ended hcurrent

end Events

section Four
open PriceOracle

/-- Three of four have registered. A store that does not name any participants is handed on, and after
it that of the round. -/
def registrations : List (Call Event PriceOracle.Payload) :=
  .setup :: ["a", "b", "c"].map fun sender => .processTransaction ⟨sender, .registration⟩

set_option synthInstance.maxSize 1000 in
theorem events_are_all_or_nothing_of_four :
    ∃ start machine after : OracleMachine,
      ({} : Settings).machine fourAddresses fourConfig = .ok start ∧
      start.run registrations = .ok machine ∧
      machine.processEvent .done (some (.ofSetup ∅)) =
        .ok (.error (.keyNotFound participantsKey), machine) ∧
      machine.transcript [.processEvent .done (some (.ofSetup ∅)), .processEvent .done none] =
        .ok ([(.processEvent .done (some (.ofSetup ∅)), .error (.keyNotFound participantsKey)),
          (.processEvent .done none, .ok none)], after) ∧
      after.previousRounds = machine.previousRounds ++ [.registration] ∧
      after.height.toNat = machine.height.toNat + 1 := by
  have hrun : (({} : Settings).machine fourAddresses fourConfig).toOption.map (fun start =>
      (start.run registrations).map fun machine =>
        (machine.currentKind, (machine.app.transitions.next? .registration .done).isSome,
          [some (Store.ofSetup ∅), none].map fun result =>
            (machine.processEvent .done result).map (·.1))) =
      some (.ok (some .registration, true,
        [.ok (.error (.keyNotFound participantsKey)), .ok (.ok ())])) := by
    decide +kernel
  obtain ⟨start, machine, hstart, hcalls, hseen⟩ := exists_machine_after hrun
  simp only [Prod.mk.injEq, List.map_cons, List.map_nil, List.cons.injEq, and_true] at hseen
  obtain ⟨hkind, hedge, hrefused, hmoved⟩ := hseen
  obtain ⟨⟨_, refused⟩, hrefused, rfl⟩ := Checked.map_eq_ok_iff.1 hrefused
  obtain ⟨⟨_, after⟩, hmoved, rfl⟩ := Checked.map_eq_ok_iff.1 hmoved
  obtain ⟨⟨kind, round⟩, hcurrent, rfl⟩ := Option.map_eq_some_iff.1 hkind
  obtain ⟨hsame, hlater⟩ := (events_are_all_or_nothing (.inl hrefused)).2.1 _ rfl
  obtain ⟨hhistory, hheight⟩ := (events_are_all_or_nothing (.inr ⟨rfl, hmoved⟩)).2.2 rfl _ _ hcurrent
  refine ⟨start, machine, after, hstart, hcalls, ?_, ?_, ?_, ?_⟩
  · rw [hrefused]
    exact congrArg (fun machine => Except.ok (Except.error _, machine)) hsame
  · rw [hlater, transcript, ask_processEvent hmoved]
    rfl
  · rw [previousRounds, hhistory, List.map_append]
    rfl
  · rw [hheight, if_pos hedge]

end Four

end QuorumRounds.Machine
