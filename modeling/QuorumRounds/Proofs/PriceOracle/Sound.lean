import QuorumRounds.Proofs.Machine.Deadlines
import QuorumRounds.Proofs.PriceOracle.Running

/-! # Rounds from which the price oracle can always go on

A round is sound when its store names the participants and, if it opens periods, carries them over.
Every round that can be built is sound and stays so (`Round.soundness`), also in a machine that is
set up with other data, or moved by events from outside. A sound round hands on stores that name the
participants (`Round.Sound.endBlock`), and from such a store every round can be built:
no machine of the price oracle is ever stuck (`neverStuck`). -/

namespace QuorumRounds.PriceOracle
set_option autoImplicit false

namespace Round

def Sound : Round → Prop
  | .reset ballot keys _ =>
    (∃ participants, ballot.poll.store.participants = .ok participants) ∧ participantsKey ∈ keys
  | round => ∃ participants, round.store.participants = .ok participants

variable {round after : Round}

theorem Sound.exists_participants (h : round.Sound) :
    ∃ participants, round.store.participants = .ok participants := by
  cases round with
  | registration gathering => exact h
  | collectObservation gathering => exact h
  | estimateConsensus ballot => exact h
  | reset ballot keys depth => exact h.1

theorem exists_participants_of_build {depth : UInt64} {kind : RoundKind}
    {context : RoundContext Kind} (h : buildRound crossPeriodKeys depth kind context = .ok round) :
    ∃ participants, context.store.participants = .ok participants := by
  cases hread : context.store.participants with
  | ok participants => exact ⟨participants, rfl⟩
  | error e =>
    cases kind <;>
      simp [buildRound, Gathering.ofContext, Ballot.ofContext, Poll.ofContext, hread,
        Except.map] at h

theorem sound_of_build {depth : UInt64} {kind : RoundKind} {context : RoundContext Kind}
    (h : buildRound crossPeriodKeys depth kind context = .ok round) : round.Sound := by
  obtain ⟨participants, hread⟩ := exists_participants_of_build h
  rw [buildRound_eq hread] at h
  cases h
  cases kind with
  | registration => exact ⟨participants, hread⟩
  | collectObservation => exact ⟨participants, hread⟩
  | estimateConsensus => exact ⟨participants, hread⟩
  | reset => exact ⟨⟨participants, hread⟩, by simp [crossPeriodKeys]⟩

theorem Sound.accept (h : round.Sound) (tx : Transaction Payload) : (round.accept tx).Sound := by
  cases round with
  | registration gathering => exact h
  | collectObservation gathering => exact h
  | estimateConsensus ballot => exact h
  | reset ballot keys depth => exact h

theorem Sound.process (h : round.Sound) {tx : Transaction Payload}
    {answer : Except InternalError Unit} (hprocess : round.process tx = .ok (answer, after)) :
    after.Sound := by
  rcases process_cases hprocess with ⟨_, rfl⟩ | ⟨_, rfl⟩
  · exact h.accept tx
  · exact h

/-! ## Results -/

theorem participants_of_handOn {α : Type} {store next : Store} {event : Event}
    {decision : Decision α} {result : α → Checked Store}
    (h : handOn store decision result = .ok (some (next, event)))
    (hstore : ∃ participants, store.participants = .ok participants)
    (hresult : ∀ outcome made, result outcome = .ok made →
      ∃ participants, made.participants = .ok participants) :
    ∃ participants, next.participants = .ok participants := by
  cases decision with
  | pending => cases h
  | noMajority =>
    cases h
    exact hstore
  | reached outcome =>
    obtain ⟨made, hmade, heq⟩ := Checked.map_eq_ok_iff.1 h
    cases heq
    exact hresult outcome _ hmade

theorem participants_of_update {store : Store} {updates : List (String × Value)}
    (hkeep : Store.written participantsKey updates = [])
    (hstore : ∃ participants, store.participants = .ok participants) :
    ∃ participants, (store.update updates).participants = .ok participants := by
  obtain ⟨participants, hread⟩ := hstore
  exact ⟨participants,
    (Store.participants_congr (Store.get?_update_of_not_written hkeep)).trans hread⟩

/-- The keys of a payload's attributes are written under another name. -/
theorem written_mostVotedUpdates (payload : Payload) :
    Store.written participantsKey (mostVotedUpdates payload) = [] := by
  cases payload <;> rfl

theorem participants_of_create {store next : Store} {keys : List String}
    (hkeys : participantsKey ∈ keys) (hcreate : store.create keys = .ok next)
    (hstore : ∃ participants, store.participants = .ok participants) (depth : Nat) :
    ∃ participants, (next.cleanup depth none).participants = .ok participants := by
  obtain ⟨participants, hread⟩ := hstore
  obtain ⟨value, hvalue⟩ := Store.exists_get?_of_participants hread
  have hsame : (next.cleanup depth none).get? participantsKey = store.get? participantsKey := by
    rw [Store.get?_cleanup, hvalue]
    exact Store.get?_create hcreate hkeys hvalue
  exact ⟨participants, (Store.participants_congr hsame).trans hread⟩

/-- A round that decides hands on the participants that it found, or writes new ones. -/
theorem Sound.endBlock (h : round.Sound) {outcome : Option (Store × Event)}
    (hend : round.endBlock = .ok (outcome, after)) :
    after.Sound ∧ ∀ store event, outcome = some (store, event) →
      ∃ participants, store.participants = .ok participants := by
  have hstore := h.exists_participants
  cases round with
  | registration gathering =>
    obtain ⟨decision, asked, hdecide, hmade, rfl⟩ := handedOn_eq_ok .registration hend
    obtain ⟨_, _, _, _, rfl, _⟩ := Gathering.decide_eq_ok hdecide
    refine ⟨h, ?_⟩
    rintro store event rfl
    refine participants_of_handOn hmade hstore ?_
    intro collection made hmade
    cases hmade
    have hvalue := Store.get?_update gathering.poll.store participantsKey participantsKey
      (participantsValue collection.keys)
    rw [if_pos rfl] at hvalue
    exact ⟨_, Store.participants_of_value hvalue⟩
  | collectObservation gathering =>
    obtain ⟨decision, asked, hdecide, hmade, rfl⟩ := handedOn_eq_ok .collectObservation hend
    obtain ⟨_, _, _, _, rfl, _⟩ := Gathering.decide_eq_ok hdecide
    refine ⟨h, ?_⟩
    rintro store event rfl
    refine participants_of_handOn hmade hstore ?_
    intro collection made hmade
    cases hmade
    exact participants_of_update rfl hstore
  | estimateConsensus ballot =>
    obtain ⟨decision, asked, hdecide, hmade, rfl⟩ := handedOn_eq_ok .estimateConsensus hend
    obtain ⟨_, _, _, _, rfl, _⟩ := Ballot.decide_eq_ok hdecide
    refine ⟨h, ?_⟩
    rintro store event rfl
    refine participants_of_handOn hmade hstore ?_
    intro payload made hmade
    cases hmade
    exact participants_of_update (written_mostVotedUpdates payload) hstore
  | reset ballot keys depth =>
    obtain ⟨decision, asked, hdecide, hmade, rfl⟩ := handedOn_eq_ok (.reset · keys depth) hend
    obtain ⟨_, _, _, _, rfl, _⟩ := Ballot.decide_eq_ok hdecide
    refine ⟨h, ?_⟩
    rintro store event rfl
    refine participants_of_handOn hmade hstore ?_
    intro payload made hmade
    obtain ⟨next, hcreate, rfl⟩ := Checked.map_eq_ok_iff.1 hmade
    exact participants_of_create h.2 hcreate hstore depth.toNat

end Round

/-! ## Machines -/

theorem soundness (settings : Settings) : Machine.Invariant settings.application Round.Sound where
  build := fun h => Round.sound_of_build h
  process := fun h hprocess => h.process hprocess
  endBlock := fun h hend => (h.endBlock hend).1

section Machines
variable {settings : Settings} {machine after : OracleMachine}

/-- No event leads into a round that cannot be built. -/
theorem neverStuck (h : machine.Upholds settings.application Round.Sound) {kind next : RoundKind}
    {round : Round} {event : Event} {store : Store}
    (hcurrent : machine.current = some (kind, round)) (hstore : Machine.HandsOn round event store) :
    ∃ successor, machine.build next store = .ok successor := by
  have hsound := h.current kind round hcurrent
  have hread : ∃ participants, store.participants = .ok participants := by
    rcases hstore with rfl | ⟨after, hend⟩
    · exact hsound.exists_participants
    · exact (hsound.endBlock hend).2 store event rfl
  obtain ⟨participants, hparticipants⟩ := hread
  exact ⟨_, build_eq h.app_eq hparticipants next⟩

theorem answer_of_eventOutcome {event : Event} {result : Option Store}
    {answer : Except Error Unit} (h : machine.EventOutcome event result answer after)
    (happ : machine.app = settings.application)
    (hread : ∀ kind round, machine.current = some (kind, round) →
      ∃ participants, (result.getD round.store).participants = .ok participants) :
    answer = .ok () := by
  cases h with
  | ignored => rfl
  | stopped => rfl
  | @refused kind next round e hcurrent _ hbuild =>
    obtain ⟨participants, hparticipants⟩ := hread kind round hcurrent
    cases hbuild.symm.trans (build_eq happ hparticipants next)
  | moved => rfl

/-- A round is not told apart from the one that follows it. -/
theorem passes_of_upholds {taken : List (Transaction Payload)} {event : Option Event}
    (h : machine.Upholds settings.application Round.Sound) :
    Machine.Passes (fun (_ : Unit) (_ : List (Transaction Payload)) machine =>
      Machine.Upholds settings.application Round.Sound machine) () taken event machine := by
  cases event with
  | none => exact .stays h
  | some event =>
    apply Machine.Passes.moves
    exacts [h, ()]

/-- Sound rounds are never refused to be left, and refuse nothing that passes the check. -/
theorem soundTracks (settings : Settings) :
    Machine.Tracks fun (_ : Unit) (_ : List (Transaction Payload)) machine =>
      Machine.Upholds settings.application Round.Sound machine where
  updateTime := by
    intro _ taken machine now answer after h htime
    have houtcome : Machine.Outcome machine (.updateTime now) answer after :=
      Machine.ask_outcome htime
    have hafter := h.outcome (soundness settings) houtcome
    cases houtcome with
    | stamped => exact ⟨none, rfl, passes_of_upholds hafter⟩
    | @expired _ _ _ _ event moved _ _ _ hevent =>
      have hmoved : moved = .ok () := answer_of_eventOutcome hevent h.app_eq
        fun kind round hcurrent => (h.current kind round hcurrent).exists_participants
      rw [hmoved]
      exact ⟨some event, rfl, passes_of_upholds hafter⟩
  processTransaction := by
    intro _ taken machine tx answer after h hcheck hprocess
    have hcall : machine.call (.processTransaction tx) = .ok (answer, after) := hprocess
    obtain ⟨_, houtcome, _⟩ := Machine.call_outcome hcall
    refine ⟨?_, h.outcome (soundness settings) houtcome⟩
    cases hcurrent : machine.current with
    | none =>
      simp only [Machine.checkTransaction, hcurrent] at hcheck
      cases hcheck
    | some entry =>
      have hpass := Machine.checkTransaction_eq_ok hcurrent hcheck
      obtain ⟨taken', moved, hmoved, rfl, _⟩ := Machine.processTransaction_eq_ok hcurrent hprocess
      cases hmoved.symm.trans (Round.process_of_check hpass)
      rfl
  endBlock := by
    intro _ taken machine answer after h hend
    have houtcome : Machine.Outcome machine .endBlock answer after := Machine.ask_outcome hend
    have hafter := h.outcome (soundness settings) houtcome
    cases houtcome with
    | unasked | undecided => exact ⟨none, rfl, passes_of_upholds hafter⟩
    | @decided kind round _ store event moved _ hcurrent hasked hevent =>
      have hsound := h.current kind round hcurrent
      have hmoved : moved = .ok () := answer_of_eventOutcome hevent h.app_eq
        fun _ _ _ => (hsound.endBlock hasked).2 store event rfl
      rw [hmoved]
      exact ⟨some event, rfl, passes_of_upholds hafter⟩

end Machines

end QuorumRounds.PriceOracle
