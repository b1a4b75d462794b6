import QuorumRounds.Proofs.PriceOracle.Backed
import QuorumRounds.Proofs.PriceOracle.Reorder
import QuorumRounds.Proofs.Replica.Transitions

/-! # When rounds of the price oracle follow one another

Every event of a price oracle leads to another round, so a timeout at the start of a block and a
decision at its end raise the height of the machine by one each (`serving_climbs`). The transactions
in between are judged by the round that is active after the timeout, which is a new one if there was
a timeout. -/

namespace QuorumRounds.PriceOracle
set_option autoImplicit false

variable {settings : Settings} {config : Config RoundKind} {participants : SortedSet String}

namespace Serving
variable {current : RoundKind × Poll Kind} {taken : List (Transaction Payload)}
  {machine after : OracleMachine}

theorem updateTime_advances {now : Duration} {fired : Option Event}
    (h : Serving settings config participants current taken machine)
    (htime : machine.updateTime now = .ok (.ok fired, after)) :
    fired = none ∧ after.current = machine.current ∧ after.height = machine.height ∨
      ∃ event, fired = some event ∧ machine.Advances current.1 event machine.store after := by
  obtain ⟨round, hcurrent, _⟩ := h.1.round
  rw [Machine.store_of_current hcurrent]
  apply Machine.updateTime_advances hcurrent ?_ htime
  rintro event rfl
  have hcontinues := h.expired htime
  rwa [Machine.store_of_current hcurrent] at hcontinues

theorem endBlock_advances {decided : Option Event} {kind : RoundKind} {round : Round}
    (h : Serving settings config participants current taken machine)
    (hcurrent : machine.current = some (kind, round))
    (hend : machine.endBlock = .ok (.ok decided, after)) :
    decided = none ∧ after.height = machine.height ∨
      ∃ event store asked, decided = some event ∧
        round.endBlock = .ok (some (store, event), asked) ∧
        machine.Advances kind event store after := by
  obtain ⟨_, hcurrent', _⟩ := h.1.round
  cases hcurrent.symm.trans hcurrent'
  exact Machine.endBlock_advances hcurrent (fun _ _ _ hasked => h.decided hcurrent hasked) hend

end Serving

theorem serving_climbs (settings : Settings) (config : Config RoundKind)
    (participants : SortedSet String) :
    Machine.Climbs (Serving settings config participants) where
  active h := by
    obtain ⟨round, hcurrent, _⟩ := h.1.round
    exact ⟨_, round, hcurrent⟩
  updateTime h htime := by
    rcases h.updateTime_advances htime with ⟨rfl, _, hheight⟩ | ⟨event, rfl, hadvances⟩
    · rw [hheight]
      rfl
    · exact hadvances.height_eq
  endBlock h hend := by
    obtain ⟨_, hcurrent, _⟩ := h.1.round
    rcases h.endBlock_advances hcurrent hend with ⟨rfl, hheight⟩ | ⟨_, _, _, rfl, _, hadvances⟩
    · rw [hheight]
      rfl
    · exact hadvances.height_eq

theorem SetUp.heights_eq {start : OracleReplica} (h : SetUp settings participants config start) :
    start.height = 0 ∧ start.transitionHeight = 0 := by
  obtain ⟨machine, _, hsetup⟩ := h
  obtain ⟨⟨answer, entered⟩, _, heq⟩ := Checked.bind_eq_ok_iff.1 hsetup
  obtain ⟨rfl, rfl⟩ := Prod.mk.inj (Except.ok.inj heq)
  exact ⟨rfl, rfl⟩

/-- A timeout has led to the round that judges the transactions, and a decision of that round to the
one that is active after the block. -/
structure Turns (replica : OracleReplica) (outcome : BlockOutcome Event) (after : OracleReplica)
    (fired : Option Event) (timed : OracleMachine) (kind : RoundKind) (round settled : Round) :
    Prop where
  stays : fired = none → replica.machine.current = some (kind, round)
  fires : ∀ event, fired = some event → ∃ old, replica.machine.currentKind = some old ∧
    replica.machine.Advances old event replica.machine.store timed
  ends : ∀ event, outcome.event = some event → ∃ store asked,
    settled.endBlock = .ok (some (store, event), asked) ∧
      timed.Advances kind event store after.machine

theorem turns_of_processed {replica after : OracleReplica} {block : Block}
    {outcome : BlockOutcome Event} {fired : Option Event} {timed : OracleMachine} {kind : RoundKind}
    {round settled : Round} {kept : List (List UInt8)}
    (hheld : Replica.Held (Serving settings config participants) replica)
    (h : replica.Processed block outcome after fired timed kind round settled kept)
    (hsettled : ∃ current taken, Serving settings config participants current taken
      { timed with current := some (kind, settled) }) :
    Turns replica outcome after fired timed kind round settled := by
  obtain ⟨first, taken, hfirst⟩ := hheld
  obtain ⟨last, taken', hlast⟩ := hsettled
  obtain ⟨begun, hbegun, _⟩ := hfirst.1.round
  have hstart := hfirst.updateTime_advances h.timed_eq
  refine ⟨fun hnone => ?_, fun event hevent => ?_, fun event hevent => ?_⟩
  · rcases hstart with ⟨_, hsame, _⟩ | ⟨event, hsome, _⟩
    · exact hsame.symm.trans h.current_eq
    · exact absurd (hnone.symm.trans hsome) (by simp)
  · rcases hstart with ⟨hnone, _⟩ | ⟨event', hsome, hadvances⟩
    · exact absurd (hnone.symm.trans hevent) (by simp)
    · cases hsome.symm.trans hevent
      exact ⟨first.1, Machine.currentKind_of_current hbegun, hadvances⟩
  · rcases hlast.endBlock_advances rfl h.ended_eq with ⟨hnone, _⟩ | ⟨event', store, asked, hsome,
      hasked, hadvances⟩
    · exact absurd (hnone.symm.trans hevent) (by simp)
    · cases hsome.symm.trans hevent
      exact ⟨store, asked, hasked, hadvances⟩

/-- The recorded height is that of the latest committed block in which the height of the machine has
risen. A block raises it by one for a timeout at its start and by one for a decision at its end. -/
theorem block_transitions_are_recorded {start replica : OracleReplica} {blocks : List Block}
    {outcomes : List (Except Error (BlockOutcome Event))}
    (hsetUp : SetUp settings participants config start)
    (hall : start.processAll blocks = .ok (outcomes, replica)) :
    (∃ heights, start.rises blocks = .ok heights ∧
      replica.transitionHeight = heights.getLast?.getD 0) ∧
    replica.transitionHeight ≤ replica.height ∧
    ∀ block answer after, replica.processBlock block = .ok (answer, after) →
      replica.transitionHeight ≤ after.transitionHeight ∧
      (∀ e, answer = .error e → after = replica) ∧
      ∀ outcome, answer = .ok outcome → ∃ fired timed kind round settled kept,
        replica.Processed block outcome after fired timed kind round settled kept ∧
        Turns replica outcome after fired timed kind round settled := by
  have htracks := serving_tracks settings config participants
  have hclimbs := serving_climbs settings config participants
  obtain ⟨_, _, current, hrunning, hsame⟩ := hsetUp.running
  have hstart : Replica.Held (Serving settings config participants) start :=
    ⟨current, [], hrunning, hsame⟩
  obtain ⟨hheight, htransition⟩ := hsetUp.heights_eq
  have hzero : start.transitionHeight ≤ start.height := by
    rw [htransition, hheight]
    exact UInt64.le_refl _
  obtain ⟨hle, heights, hrises, hlast⟩ :=
    Replica.transitionHeight_of_processAll htracks hclimbs hstart hzero hall
  rw [htransition] at hlast
  obtain ⟨hheld, _⟩ := hsetUp.serving_of_processAll hall
  refine ⟨⟨heights, hrises, hlast⟩, hle, fun block answer after hblock => ⟨?_, ?_, ?_⟩⟩
  · exact (Replica.transitionHeight_le htracks hclimbs hheld hle hblock).1
  · rintro e rfl
    obtain ⟨g, taken, hholds⟩ := hheld
    exact Replica.processBlock_eq_error htracks hholds hblock
  · rintro outcome rfl
    obtain ⟨fired, timed, kind, round, settled, kept, hprocessed, hsettled⟩ :=
      Replica.exists_processed htracks hclimbs hheld hblock
    exact ⟨fired, timed, kind, round, settled, kept, hprocessed,
      turns_of_processed hheld hprocessed hsettled⟩

/-- The second block is refused. -/
def registered : List Block :=
  [blockFrom 1 ["a", "b", "c", "d"] .registration, blockFrom 5 ["a"] .registration]

/-- An observation that comes too late, and three votes on the period to open next. -/
def lateBlock : Block :=
  ⟨⟨2, .ofSeconds 40⟩, sent "d" (.observation ⟨0x3ff0000000000000⟩) ::
    ["a", "b", "c"].map (sent · (.reset 1))⟩

deriving instance DecidableEq for BlockOutcome

set_option synthInstance.maxSize 1000 in
/-- A timeout has fired at the start of the block and the round after it has decided at its end. -/
theorem block_transitions_are_recorded_of_four :
    ∃ start replica after outcomes outcome, SetUp {} fourAddresses fourConfig start ∧
      start.processAll registered = .ok (outcomes, replica) ∧
      start.rises registered = .ok [1] ∧ replica.transitionHeight = 1 ∧
      replica.processBlock lateBlock = .ok (.ok outcome, after) ∧
      outcome.rejected = [(0, .invalidTransaction (.unexpectedTransactionType "observation"))] ∧
      outcome.event = some .done ∧ after.transitionHeight = 2 ∧
      ∃ fired timed kind round settled kept,
        replica.Processed lateBlock outcome after (some fired) timed kind round settled kept ∧
        Turns replica outcome after (some fired) timed kind round settled := by
  have hregistered : (({} : Settings).start? fourAddresses fourConfig).map (fun start =>
      (start.rises registered).map id) = some (.ok [1]) := by decide +kernel
  have hrun : (({} : Settings).start? fourAddresses fourConfig).map (fun start =>
      (start.processAll registered).map fun (_, replica) =>
        (replica.machine.height, (replica.processBlock lateBlock).map fun (answer, after) =>
          (answer.toOption, after.machine.height))) =
      some (.ok (1, .ok (some ⟨[(0, .invalidTransaction (.unexpectedTransactionType "observation"))],
        some .done⟩, 3))) := by decide +kernel
  obtain ⟨start, heights, hsetUp, hheights, rfl⟩ := exists_after hregistered
  obtain ⟨_, ⟨outcomes, replica⟩, hsame, hall, hseen⟩ := exists_after hrun
  obtain rfl := hsetUp.unique hsame
  obtain ⟨hbefore, hended⟩ := Prod.mk.inj hseen
  obtain ⟨⟨answer, after⟩, hlate, heq⟩ := Checked.map_eq_ok_iff.1 hended
  obtain ⟨hanswer, hafter⟩ := Prod.mk.inj heq
  obtain rfl := Checked.eq_ok_of_toOption hanswer
  obtain ⟨⟨heights, hrises, hlast⟩, _, hblock⟩ := block_transitions_are_recorded hsetUp hall
  cases hheights.symm.trans hrises
  obtain ⟨fired, timed, kind, round, settled, kept, hprocessed, hturns⟩ :=
    (hblock _ _ _ hlate).2.2 _ rfl
  have hstarts := hprocessed.rises_start
  have hends := hprocessed.rises_end
  have htransition := hprocessed.transitionHeight_eq
  rw [hbefore, hafter, if_pos (by decide)] at htransition
  rw [hafter, hstarts, hbefore] at hends
  cases fired with
  | none => cases hends
  | some fired =>
    exact ⟨start, replica, after, outcomes, _, hsetUp, hall, hheights, hlast, hlate, rfl, rfl,
      htransition, fired, timed, kind, round, settled, kept, hprocessed, hturns⟩

end QuorumRounds.PriceOracle
