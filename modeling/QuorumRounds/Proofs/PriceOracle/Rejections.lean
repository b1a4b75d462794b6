import QuorumRounds.Proofs.Ballot.Agreement
import QuorumRounds.Proofs.PriceOracle.Rounds

/-! # Why a transaction is refused

Every round looks at the kind, the layout and the sender of a transaction (`Round.checkCommon`), and a
reset looks at the period that the payload names as well (`Round.checkTimely`). A transaction is
checked by the common rules first (`Round.check_eq`) and processed by the period first
(`Round.process_eq`). So the two refuse the same transactions, and they give the same reason unless
both rules are broken. -/

namespace QuorumRounds
set_option autoImplicit false

/-! ## The common rules -/

section Common
variable {P κ : Type} [Ord κ] [Payload P κ] [DecidableEq κ] [Named κ] {tx : Transaction P}
  {expected actual : UInt64}

theorem Shape.check_ne_unexpectedPeriod {shape : Shape} {data : SortedMap String Value} :
    shape.check data ≠ .error (.unexpectedPeriod expected actual) := by
  unfold Shape.check
  dsimp only
  split <;> simp

theorem Poll.check_ne_unexpectedPeriod {poll : Poll κ} :
    poll.check tx ≠ .error (.unexpectedPeriod expected actual) := by
  intro h
  unfold Poll.check at h
  dsimp only at h
  split at h
  case isFalse => cases h
  case isTrue =>
    split at h
    case h_1 => cases h
    case h_2 shape _ =>
      cases hshape : shape.check (Payload.data tx.payload) with
      | error reason =>
        rw [hshape] at h
        cases h
        exact Shape.check_ne_unexpectedPeriod hshape
      | ok _ =>
        simp only [hshape] at h
        split at h <;> cases h

theorem Ballot.check_ne_unexpectedPeriod {ballot : Ballot P κ} :
    ballot.check tx ≠ .error (.unexpectedPeriod expected actual) := by
  intro h
  unfold Ballot.check at h
  cases hpoll : ballot.poll.check tx with
  | error reason =>
    rw [hpoll] at h
    cases h
    exact Poll.check_ne_unexpectedPeriod hpoll
  | ok _ =>
    simp only [hpoll] at h
    split at h <;> cases h

end Common

namespace PriceOracle.Round
variable {round : Round}

theorem checkTimely_of_ne_reset (h : ∀ ballot keys depth, round ≠ .reset ballot keys depth)
    (tx : Transaction Payload) : round.checkTimely tx = .ok (.ok ()) := by
  cases round with
  | reset ballot keys depth => exact absurd rfl (h ballot keys depth)
  | registration | collectObservation | estimateConsensus => rfl

/-- A vote that is refused for its period names another one than the next. -/
theorem checkTimely_eq_error {tx : Transaction Payload} {reason : Rejection}
    (h : round.checkTimely tx = .ok (.error reason)) :
    ∃ ballot keys depth expected actual, round = .reset ballot keys depth ∧
      tx.payload = .reset actual ∧ Word.succ round.store.period = .ok expected ∧
      actual ≠ expected ∧ reason = .unexpectedPeriod expected actual := by
  cases round with
  | registration | collectObservation | estimateConsensus => cases h
  | reset ballot keys depth =>
    obtain ⟨expected, hexpected, hrest⟩ := Checked.bind_eq_ok_iff.1 h
    cases hpayload : tx.payload with
    | registration | observation | estimate =>
      rw [hpayload] at hrest
      cases hrest
    | reset actual =>
      simp only [hpayload] at hrest
      split at hrest
      case isTrue => cases hrest
      case isFalse hne =>
        cases hrest
        exact ⟨ballot, keys, depth, expected, actual, rfl, rfl, hexpected, hne, rfl⟩

theorem checkCommon_ne_unexpectedPeriod {ballot : Ballot Payload Kind} {keys : List String}
    {depth expected actual : UInt64} {tx : Transaction Payload} :
    (reset ballot keys depth).checkCommon tx ≠ .error (.unexpectedPeriod expected actual) :=
  Ballot.check_ne_unexpectedPeriod

theorem ne_of_both {tx : Transaction Payload} {common timely : Rejection}
    (hcommon : round.checkCommon tx = .error common)
    (htimely : round.checkTimely tx = .ok (.error timely)) :
    (∃ expected actual, timely = .unexpectedPeriod expected actual) ∧ common ≠ timely := by
  obtain ⟨ballot, keys, depth, expected, actual, rfl, _, _, _, rfl⟩ := checkTimely_eq_error htimely
  refine ⟨⟨expected, actual, rfl⟩, ?_⟩
  rintro rfl
  exact checkCommon_ne_unexpectedPeriod hcommon

/-- The same transactions are refused by checking and by processing, and processing leaves the round
as it was then. The reasons are the same except for a vote that breaks a common rule and names another
period than the next: it is checked by the former and processed by the latter. -/
theorem reasons_differ_on_two_faults (round : Round) (tx : Transaction Payload) :
    (∀ after, round.process tx = .ok (.ok (), after) ↔
      round.check tx = .ok (.ok ()) ∧ after = round.accept tx) ∧
    (∀ e after, round.process tx = .ok (.error e, after) →
      after = round ∧ ∃ reason, e = .invalidPayload reason) ∧
    ((∀ reason, round.check tx = .ok (.error reason) ↔
        round.process tx = .ok (.error (.invalidPayload reason), round)) ↔
      round.checkCommon tx = .ok () ∨ round.checkTimely tx = .ok (.ok ())) ∧
    ((∀ ballot keys depth, round ≠ .reset ballot keys depth) →
      round.checkTimely tx = .ok (.ok ())) ∧
    ∀ common timely, round.checkCommon tx = .error common →
      round.checkTimely tx = .ok (.error timely) →
      round.check tx = .ok (.error common) ∧
      round.process tx = .ok (.error (.invalidPayload timely), round) ∧
      (∃ expected actual, timely = .unexpectedPeriod expected actual) ∧ common ≠ timely := by
  refine ⟨fun _ => process_eq_ok_iff, fun _ _ => process_eq_error, ?_,
    fun h => checkTimely_of_ne_reset h tx, ?_⟩
  · rw [check_eq, process_eq]
    cases hcommon : round.checkCommon tx with
    | ok _ =>
      simp only [true_or, iff_true]
      intro reason
      cases round.checkTimely tx with
      | error e => simp [Except.map]
      | ok timely => cases timely <;> simp [Except.map, settle]
    | error common =>
      cases htimely : round.checkTimely tx with
      | error e =>
        -- nothing comes of processing, and the check answers
        simp [Except.map]
      | ok timely =>
        cases timely with
        | ok _ => simp [Except.map, settle]
        | error late =>
          have hne := (ne_of_both hcommon htimely).2
          simp only [Except.map, settle, Except.ok.injEq, Except.error.injEq, Prod.mk.injEq,
            InternalError.invalidPayload.injEq, and_true, reduceCtorEq, or_self, iff_false]
          exact fun hall => hne ((hall common).1 rfl).symm
  · intro common timely hcommon htimely
    rw [check_eq, process_eq, hcommon, htimely]
    exact ⟨rfl, rfl, ne_of_both hcommon htimely⟩

/-- A vote of somebody who does not take part, for a period that does not follow. -/
def strayVote : Transaction Payload := ⟨"e", .reset 7⟩

/-- It is checked for its sender and processed for its period. -/
theorem reasons_differ_on_a_stray_vote :
    ∃ round, buildRound crossPeriodKeys 2 .reset Ballot.fourParticipants = .ok round ∧
      round.check strayVote = .ok (.error (.senderNotParticipant ["a", "b", "c", "d"])) ∧
      round.process strayVote = .ok (.error (.invalidPayload (.unexpectedPeriod 1 7)), round) := by
  have hrun : (buildRound crossPeriodKeys 2 .reset Ballot.fourParticipants).toOption.map
      (fun round => (round.check strayVote, (round.process strayVote).map (·.1))) =
      some (.ok (.error (.senderNotParticipant ["a", "b", "c", "d"])),
        .ok (.error (.invalidPayload (.unexpectedPeriod 1 7)))) := by
    decide +kernel
  obtain ⟨round, hopen, hanswers⟩ := Option.map_eq_some_iff.1 hrun
  obtain ⟨hcheck, hanswer⟩ := Prod.mk.inj hanswers
  obtain ⟨⟨answer, after⟩, hprocess, rfl⟩ := Checked.map_eq_ok_iff.1 hanswer
  obtain ⟨rfl, _⟩ := process_eq_error hprocess
  exact ⟨after, Checked.eq_ok_of_toOption hopen, hcheck, hprocess⟩

end PriceOracle.Round

end QuorumRounds
