import QuorumRounds.Proofs.Machine.Deadlines

/-! # Timeouts that are due

A timestamp takes out the least deadline that is due, and only then is the round built that the event
leads to. So a timeout whose round cannot be built has been taken out for good: every event is
pending once at most (`Ordered`), nothing is scheduled in a round after its timeouts have been
(`Stays.dwindles`), and the round goes on without it (`updateTime_eq_error`). -/

namespace QuorumRounds.Machine
set_option autoImplicit false

variable {ρ ε κ σ P : Type} [Ord ρ] [Ord ε] [Ord κ] {start machine after : Machine ρ ε κ σ}
  {now : Duration}

/-! ## What is pending -/

/-- Every event is pending once at most, and none while the timeouts wait for a timestamp. -/
structure Ordered (machine : Machine ρ ε κ σ) : Prop where
  waits : machine.awaitsTime = true → machine.timeouts.due = []
  increase : machine.timeouts.due.Pairwise fun a b => compare a.2 b.2 = .lt

namespace Ordered

theorem pendingAt_increase (h : machine.Ordered) (now : Duration) :
    (machine.pendingAt now).Pairwise fun a b => compare a.2 b.2 = .lt := by
  rw [pendingAt]
  split
  · exact machine.deadlines_increase (some now)
  · exact h.increase

theorem enter {kind : ρ} {round : σ} (henter : machine.enter kind round = .ok after) :
    after.Ordered := by
  obtain ⟨timeouts, rfl, hdue⟩ := enter_exactly henter
  constructor
  · intro hawaits
    change timeouts.due = []
    rw [hdue, Option.isNone_iff_eq_none.1 hawaits, deadlines_none]
  · change timeouts.due.Pairwise _
    rw [hdue]
    exact deadlines_increase _ _

end Ordered

/-! ## Rounds that go on -/

/-- Of what has been pending some is left, and the timeouts do not start to wait for a timestamp. -/
structure Dwindles (pending : List (Nat × ε)) (machine after : Machine ρ ε κ σ) : Prop where
  sublist : after.timeouts.due.Sublist pending
  waits : after.awaitsTime = true → machine.awaitsTime = true ∧ pending = []

namespace Dwindles
variable {pending : List (Nat × ε)}

theorem ordered (h : Dwindles pending machine after)
    (hincrease : pending.Pairwise fun a b => compare a.2 b.2 = .lt) : after.Ordered where
  waits hawaits := by
    have hsublist := h.sublist
    rw [(h.waits hawaits).2] at hsublist
    exact List.sublist_nil.1 hsublist
  increase := hincrease.sublist h.sublist

/-- Timeouts that do not wait for a timestamp never come to wait for one. -/
theorem scheduled (h : Dwindles pending machine after) (hscheduled : machine.awaitsTime = false) :
    after.awaitsTime = false := by
  rw [← Bool.not_eq_true]
  intro hawaits
  rw [(h.waits hawaits).1] at hscheduled
  cases hscheduled

theorem of_sublist (h : machine.Ordered)
    (hsublist : after.timeouts.due.Sublist machine.timeouts.due)
    (hawaits : after.awaitsTime = machine.awaitsTime) :
    Dwindles machine.timeouts.due machine after where
  sublist := hsublist
  waits htrue := ⟨hawaits ▸ htrue, h.waits (hawaits ▸ htrue)⟩

end Dwindles

section Rounds
variable [RoundBehavior σ P ε]

/-- What is pending when the call is made. -/
def Call.pending (machine : Machine ρ ε κ σ) : Call ε P → List (Nat × ε)
  | .updateTime now => machine.pendingAt now
  | _ => machine.timeouts.due

theorem EventOutcome.ordered_or_dwindles {event : ε} {result : Option Store}
    {answer : Except Error Unit} (h : machine.Ordered)
    (houtcome : EventOutcome machine event result answer after) :
    after.height ≠ machine.height ∧ after.Ordered ∨
      after.height = machine.height ∧ Dwindles machine.timeouts.due machine after := by
  cases houtcome with
  | ignored | refused => exact .inr ⟨rfl, .of_sublist h (.refl _) rfl⟩
  | stopped => exact .inr ⟨rfl, .of_sublist h (List.nil_sublist _) rfl⟩
  | moved _ _ _ hheight henter =>
    have hordered := Ordered.enter henter
    obtain ⟨timeouts, rfl, _⟩ := enter_exactly henter
    exact .inl ⟨Word.ne_of_succ hheight, hordered⟩

/-! ## Timestamps -/

/-- The timeout that is taken out splits what is pending. -/
theorem Ordered.split_of_pop {timeouts rest : Timeouts ε} {deadline : Duration} {event : ε}
    (h : machine.Ordered) (hscheduled : machine.SchedulesAt now timeouts)
    (hpop : timeouts.popExpired now = (some (deadline, event), rest)) :
    deadline ≤ now ∧ ∃ before later,
      machine.pendingAt now = before ++ (deadline.nanos, event) :: later ∧
        rest.due = before ++ later := by
  obtain ⟨hdue, before, later, hsplit, hrest, _⟩ := Timeouts.popExpired_eq_split hpop
  exact ⟨hdue, before, later, (hscheduled.due_eq h.waits).symm.trans hsplit, hrest⟩

/-! ## Calls -/

theorem Ordered.outcome {call : Call ε P} {answer : Except Error (Option ε)} (h : machine.Ordered)
    (houtcome : Outcome machine call answer after) :
    Enters call (answer.map fun _ => ()) machine after ∧ after.Ordered ∨
      ¬ Enters call (answer.map fun _ => ()) machine after ∧
        Dwindles (call.pending machine) machine after := by
  have hsplit : ∀ {pending}, after.height ≠ machine.height ∧ after.Ordered ∨
      after.height = machine.height ∧ Dwindles pending machine after →
        after.height ≠ machine.height ∧ after.Ordered ∨
          ¬ after.height ≠ machine.height ∧ Dwindles pending machine after := by
    intro pending hcases
    exact hcases.imp_right fun hstays => ⟨not_not_intro hstays.1, hstays.2⟩
  cases houtcome with
  | unbuilt => exact .inr ⟨nofun, .of_sublist h (.refl _) rfl⟩
  | setUp _ henter => exact .inl ⟨rfl, .enter henter⟩
  | unheard | processed | unasked | undecided | cleaned =>
    exact hsplit (.inr ⟨rfl, .of_sublist h (.refl _) rfl⟩)
  | event hevent => exact hsplit (hevent.ordered_or_dwindles h)
  | @decided kind _ asked _ _ _ _ _ _ hevent =>
    have hasked : Ordered { machine with current := some (kind, asked) } := ⟨h.waits, h.increase⟩
    exact hsplit ((hevent.ordered_or_dwindles hasked).imp_right fun hstays =>
      ⟨hstays.1, hstays.2.sublist, hstays.2.waits⟩)
  | @stamped now timeouts hscheduled =>
    have hdue : timeouts.due = machine.pendingAt now := hscheduled.due_eq h.waits
    exact hsplit (.inr ⟨rfl, hdue ▸ .refl _, nofun⟩)
  | @expired now _ _ rest _ _ _ hscheduled hpop hevent =>
    obtain ⟨_, before, later, hpending, hrest⟩ := h.split_of_pop hscheduled hpop
    have hsublist : rest.due.Sublist (machine.pendingAt now) := by
      rw [hrest, hpending]
      exact (List.sublist_cons_self _ later).append_left before
    have hpopped : Ordered { machine with
        timeouts := rest, awaitsTime := false, lastTimestamp := some now } :=
      ⟨nofun, (h.pendingAt_increase now).sublist hsublist⟩
    refine hsplit ((hevent.ordered_or_dwindles hpopped).imp_right fun hstays =>
      ⟨hstays.1, hstays.2.sublist.trans hsublist, fun hawaits => ?_⟩)
    exact nomatch (hstays.2.waits hawaits).1

theorem Ordered.call {call : Call ε P} {answer : Except Error Unit} (h : machine.Ordered)
    (hcall : machine.call call = .ok (answer, after)) :
    Enters call answer machine after ∧ after.Ordered ∨
      ¬ Enters call answer machine after ∧ Dwindles (call.pending machine) machine after := by
  obtain ⟨fired, houtcome, rfl⟩ := call_outcome hcall
  exact h.outcome houtcome

omit [RoundBehavior σ P ε] in
theorem Ordered.pending_increase (h : machine.Ordered) (call : Call ε P) :
    (call.pending machine).Pairwise fun a b => compare a.2 b.2 = .lt := by
  cases call with
  | updateTime now => exact h.pendingAt_increase now
  | setup | processTransaction | processEvent | endBlock | cleanup => exact h.increase

theorem Ordered.of_reachable [Named ρ] {app : Application ρ ε κ σ} {setup : SortedMap String Value}
    {config : Config ρ} {registry : Registry κ}
    (hstart : ofApplication app setup config registry = .ok start) (h : Reachable start machine) :
    machine.Ordered := by
  induction h with
  | start =>
    rw [ofApplication_eq_ok hstart]
    exact ⟨nofun, .nil⟩
  | @called machine after call answer _ hcall ih =>
    rcases ih.call hcall with ⟨_, hordered⟩ | ⟨_, hleft⟩
    · exact hordered
    · exact hleft.ordered (ih.pending_increase call)

/-- Calls have been made that have not entered a round. -/
inductive Stays (start : Machine ρ ε κ σ) : Machine ρ ε κ σ → Prop where
  | start : Stays start start
  | called {machine after : Machine ρ ε κ σ} {call : Call ε P} {answer : Except Error Unit}
    (hmachine : Stays start machine) (hcall : machine.call call = .ok (answer, after))
    (hstays : ¬ Enters call answer machine after) : Stays start after

/-- Nothing is scheduled any more until a round is entered. -/
theorem Stays.dwindles (hstart : start.Ordered) (hscheduled : start.awaitsTime = false)
    (h : Stays start machine) : Dwindles start.timeouts.due start machine := by
  induction h with
  | start => exact .of_sublist hstart (.refl _) rfl
  | @called machine after call answer _ hcall hstays ih =>
    have hordered := ih.ordered hstart.increase
    have hawaits := ih.scheduled hscheduled
    rcases hordered.call hcall with ⟨henters, _⟩ | ⟨_, hleft⟩
    · exact absurd henters hstays
    · have hpending : call.pending machine = machine.timeouts.due := by
        cases call with
        | updateTime now => exact pendingAt_of_scheduled hawaits now
        | setup | processTransaction | processEvent | endBlock | cleanup => rfl
      rw [hpending] at hleft
      refine ⟨hleft.sublist.trans ih.sublist, fun htrue => ?_⟩
      cases (hleft.scheduled hawaits).symm.trans htrue

/-! ## Timeouts whose round cannot be built -/

/-- The round goes on, and the event that was due is not pending any more. -/
theorem updateTime_eq_error [Std.ReflOrd ε] {e : Error} (h : machine.Ordered)
    (htime : machine.updateTime now = .ok (.error e, after)) :
    ∃ kind round next before later, ∃ deadline : Duration, ∃ event,
      machine.current = some (kind, round) ∧ deadline ≤ now ∧
      machine.pendingAt now = before ++ (deadline.nanos, event) :: later ∧
      machine.app.transitions.next? kind event = some next ∧
      machine.build next (RoundBehavior.store round) = .error e ∧
      after = { machine with
        timeouts := after.timeouts, awaitsTime := false, lastTimestamp := some now } ∧
      after.timeouts.due = before ++ later ∧ ∀ entry ∈ before ++ later, entry.2 ≠ event := by
  obtain ⟨_, deadline, event, rest, _, hscheduled, hpop, hanswer, hevent⟩ :=
    expired_of_updateTime htime nofun
  obtain ⟨hpassed, before, later, hpending, hrest⟩ := h.split_of_pop hscheduled hpop
  cases hevent with
  | ignored | stopped | moved => cases hanswer
  | @refused kind next round reason hcurrent hnext hbuild =>
    cases hanswer
    refine ⟨kind, round, next, before, later, deadline, event, hcurrent, hpassed, hpending, hnext,
      hbuild, rfl, hrest, ?_⟩
    -- the events of one list increase, so the one that is taken out differs from the others
    have hincrease := h.pendingAt_increase now
    rw [hpending, List.pairwise_append, List.pairwise_cons] at hincrease
    obtain ⟨_, ⟨hlater, _⟩, hbefore⟩ := hincrease
    rintro entry hentry rfl
    rcases List.mem_append.1 hentry with hmem | hmem
    · have hlt := hbefore entry hmem _ List.mem_cons_self
      rw [Std.compare_self] at hlt
      cases hlt
    · have hlt := hlater entry hmem
      rw [Std.compare_self] at hlt
      cases hlt

/-- An event that fires has been pending. -/
theorem updateTime_fires {event : ε} (h : machine.Ordered)
    (htime : machine.updateTime now = .ok (.ok (some event), after)) :
    ∃ entry ∈ machine.pendingAt now, entry.2 = event := by
  obtain ⟨_, deadline, _, _, moved, hscheduled, hpop, hanswer, _⟩ := expired_of_updateTime htime nofun
  obtain ⟨_, before, later, hpending, _⟩ := h.split_of_pop hscheduled hpop
  cases moved <;> cases hanswer
  refine ⟨(deadline.nanos, event), ?_, rfl⟩
  rw [hpending]
  exact List.mem_append_right _ List.mem_cons_self

/-- Nothing fires before it is due. -/
theorem updateTime_of_later (hscheduled : machine.awaitsTime = false)
    (hlater : ∀ entry ∈ machine.timeouts.due, now.nanos < entry.1) :
    machine.updateTime now = .ok (.ok none, { machine with lastTimestamp := some now }) := by
  have hpop : machine.timeouts.popExpired now = (none, machine.timeouts) :=
    Timeouts.popExpired_of_later hlater
  rw [updateTime_eq, hscheduled, if_neg Bool.false_ne_true, expire]
  simp only [hpop]

end Rounds

end QuorumRounds.Machine
