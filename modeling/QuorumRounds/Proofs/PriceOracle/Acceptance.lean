import QuorumRounds.Proofs.PriceOracle.Sessions
import QuorumRounds.Proofs.Round.Admission

/-! # Exactly which transactions the rounds accept

Checking and processing accept the same transactions, and which ones can be said without them: those
that are admitted by the poll and, in a reset, name the period after that of the store
(`Round.Admits`). The rounds are those that calls can lead to; in any other, a tally could count
somebody who is not in the collection. -/

namespace QuorumRounds.PriceOracle
set_option autoImplicit false

namespace Round

def holding : Round → Holding Payload
  | .registration gathering | .collectObservation gathering => gathering.holding
  | .estimateConsensus ballot | .reset ballot _ _ => ballot.holding

structure Admits (poll : Poll Kind) (kind : RoundKind) (heard : SortedMap String Payload)
    (tx : Transaction Payload) : Prop where
  common : poll.Admits heard tx
  period : kind = .reset → ∃ period,
    tx.payload = .reset period ∧ period.toNat = poll.store.period.toNat + 1

theorem checkCommon_eq_ok_iff {round : Round} {tx : Transaction Payload} :
    round.checkCommon tx = .ok () ↔ round.poll.Admits round.holding.collection tx := by
  cases round with
  | registration gathering => exact Gathering.check_iff_admits
  | collectObservation gathering => exact Gathering.check_iff_admits
  | estimateConsensus ballot => exact Ballot.check_iff_admits
  | reset ballot keys depth => exact Ballot.check_iff_admits

namespace Heard
variable {keys : List String} {depth required : UInt64} {poll : Poll Kind}
  {taken : List (Transaction Payload)} {kind : RoundKind} {round : Round}
  {tx : Transaction Payload}

theorem checkTimely_eq_ok_iff (h : round.Heard keys depth poll required taken kind)
    (hpayload : tx.payload.kind = kind.allowed) :
    round.checkTimely tx = .ok (.ok ()) ↔
      (kind = .reset → ∃ period,
        tx.payload = .reset period ∧ period.toNat = poll.store.period.toNat + 1) := by
  cases h with
  | other hkind h =>
    have htimely : round.checkTimely tx = .ok (.ok ()) := by
      cases h with
      | registration _ | collectObservation _ | estimateConsensus _ => rfl
      | reset _ => exact absurd rfl hkind
    exact ⟨fun _ hreset => absurd hreset hkind, fun _ => htimely⟩
  | reset h =>
    obtain ⟨period, hperiod⟩ := Payload.exists_reset hpayload
    rw [checkTimely, hperiod, checkPeriod_reset_iff, h.poll_eq]
    constructor
    · exact fun hnext _ => ⟨period, rfl, hnext⟩
    · intro hnames
      obtain ⟨named, hnamed, hnext⟩ := hnames rfl
      rw [Payload.reset.inj hnamed]
      exact hnext

theorem check_eq_ok_iff (h : round.Heard keys depth poll required taken kind)
    (hallowed : poll.allowed = kind.allowed) :
    round.check tx = .ok (.ok ()) ↔ Admits poll kind round.holding.collection tx := by
  rw [Round.check_eq_ok_iff, checkCommon_eq_ok_iff, h.poll_eq]
  constructor
  · rintro ⟨hcommon, htimely⟩
    exact ⟨hcommon, (h.checkTimely_eq_ok_iff (hcommon.kind_eq.trans hallowed)).1 htimely⟩
  · intro hadmits
    have hpayload := hadmits.common.kind_eq.trans hallowed
    exact ⟨hadmits.common, (h.checkTimely_eq_ok_iff hpayload).2 hadmits.period⟩

theorem gains_accept (h : round.Heard keys depth poll required taken kind)
    (hcheck : round.check tx = .ok (.ok ())) :
    round.holding.Gains tx (round.accept tx).holding := by
  have hcommon := (Round.check_eq_ok_iff.1 hcheck).1
  cases h with
  | other hkind h =>
    cases h with
    | registration _ | collectObservation _ => exact Gathering.gains_accept _ tx
    | estimateConsensus h => exact h.gains_accept hcommon
    | reset h => exact h.gains_accept hcommon
  | reset h => exact h.gains_accept hcommon

theorem handles (h : round.Heard keys depth poll required taken kind)
    (hallowed : poll.allowed = kind.allowed) (tx : Transaction Payload) :
    Handles holding round tx (Admits poll kind round.holding.collection tx)
      (round.check tx = .ok (.ok ())) (round.process tx) where
  passed_iff := h.check_eq_ok_iff hallowed
  accepted_iff := by
    constructor
    · rintro ⟨after, hprocess⟩
      exact (process_eq_ok_iff.1 hprocess).1
    · exact fun hcheck => ⟨_, process_of_check hcheck⟩
  gains := by
    intro after hprocess
    obtain ⟨hcheck, rfl⟩ := process_eq_ok_iff.1 hprocess
    exact h.gains_accept hcheck
  keeps := by
    intro e after hprocess
    exact (process_eq_error hprocess).1

end Heard

end Round

theorem payloads_are_accepted_exactly :
    (∀ {P κ : Type} [Ord κ] [QuorumRounds.Payload P κ] [DecidableEq κ] [Named κ] (roundId : String)
      (allowed : κ) (context : RoundContext κ) (poll : Poll κ),
      Poll.ofContext roundId allowed context = .ok poll →
      (∀ quota, ∃ opened : Gathering P κ,
        Gathering.ofContext quota roundId allowed context = .ok opened ∧
        ∀ calls journal, opened.run calls = .ok journal → ∀ tx,
          Handles Gathering.holding journal.gathering tx
            (poll.Admits journal.gathering.collection tx)
            (journal.gathering.check tx = .ok ())
            (.ok (answered journal.gathering (journal.gathering.process tx)))) ∧
      ∃ opened : Ballot P κ, Ballot.ofContext roundId allowed context = .ok opened ∧
        ∀ calls verdicts ballot, opened.run calls = .ok (verdicts, ballot) → ∀ tx,
          Handles Ballot.holding ballot tx (poll.Admits ballot.collection tx)
            (ballot.check tx = .ok ()) (.ok (answered ballot (ballot.process tx)))) ∧
    ∀ keys depth kind (context : RoundContext Kind) participants,
      context.store.participants = .ok participants →
      ∃ opened, buildRound keys depth kind context = .ok opened ∧
        ∀ round, Round.Reached opened round → ∀ tx,
          Handles Round.holding round tx
            (Round.Admits (Round.pollOf kind context participants) kind round.holding.collection tx)
            (round.check tx = .ok (.ok ())) (round.process tx) := by
  refine ⟨?_, ?_⟩
  · intro P κ _ _ _ _ roundId allowed context poll hpoll
    exact ⟨Gathering.handles_of_run hpoll, Ballot.handles_of_run hpoll⟩
  · intro keys depth kind context participants hread
    obtain ⟨opened, hbuild, hopened⟩ := Round.exists_build hread keys depth kind
    refine ⟨opened, hbuild, fun round hreached tx => ?_⟩
    obtain ⟨taken, hheard⟩ := hreached.heard rfl hopened
    exact hheard.handles rfl tx

section Instance
open Ballot (fourParticipants openedByFour someCalls zeroEstimate)

/-- Everyone has voted on an estimate. In a reset, a first vote is followed by one that is accepted,
one for another period, and a second one of the same sender. -/
theorem payloads_are_accepted_exactly_by_four :
    (∃ verdicts ballot, openedByFour.run someCalls = .ok (verdicts, ballot) ∧
      ¬openedByFour.poll.Admits ballot.collection ⟨"d", zeroEstimate⟩) ∧
    ∃ opened round next, buildRound crossPeriodKeys 2 .reset fourParticipants = .ok opened ∧
      opened.process ⟨"a", .reset 1⟩ = .ok (.ok (), round) ∧
      round.process ⟨"b", .reset 1⟩ = .ok (.ok (), next) ∧
      round.holding.Gains ⟨"b", .reset 1⟩ next.holding ∧
      ¬Round.Admits (Round.pollOf .reset fourParticipants openedByFour.poll.participants) .reset
        round.holding.collection ⟨"b", .reset 2⟩ ∧
      ¬Round.Admits (Round.pollOf .reset fourParticipants openedByFour.poll.participants) .reset
        round.holding.collection ⟨"a", .reset 1⟩ := by
  obtain ⟨hcollections, hrounds⟩ := payloads_are_accepted_exactly
  constructor
  · have hvotes : (openedByFour.run someCalls).map (fun out => out.2.check ⟨"d", zeroEstimate⟩) =
        .ok (.error (.senderAlreadySent "d" "estimate_consensus")) := by
      decide +kernel
    obtain ⟨⟨verdicts, ballot⟩, hrun, hcheck⟩ := Checked.map_eq_ok_iff.1 hvotes
    obtain ⟨-, opened, hopen, hhandles⟩ := hcollections (P := Payload) "estimate_consensus"
      .estimate fourParticipants openedByFour.poll rfl
    cases hopen
    refine ⟨verdicts, ballot, hrun, fun hadmits => ?_⟩
    cases hcheck.symm.trans ((hhandles someCalls verdicts ballot hrun _).passed_iff.2 hadmits)
  · obtain ⟨opened, hopen, hhandles⟩ := hrounds crossPeriodKeys 2 .reset fourParticipants
      openedByFour.poll.participants rfl
    have hanswers : (buildRound crossPeriodKeys 2 .reset fourParticipants).toOption.map
        (fun opened => (opened.process ⟨"a", .reset 1⟩).map fun out =>
          (out.1, (out.2.process ⟨"b", .reset 1⟩).map (·.1))) =
        some (.ok (.ok (), .ok (.ok ()))) := by
      decide +kernel
    have hrefusals : (buildRound crossPeriodKeys 2 .reset fourParticipants).toOption.map
        (fun opened => (opened.process ⟨"a", .reset 1⟩).map fun out =>
          (out.2.check ⟨"b", .reset 2⟩, out.2.check ⟨"a", .reset 1⟩)) =
        some (.ok (.ok (.error (.unexpectedPeriod 1 2)),
          .ok (.error (.senderAlreadySent "a" "reset")))) := by
      decide +kernel
    rw [hopen] at hanswers hrefusals
    obtain ⟨⟨_, round⟩, hfirst, heq⟩ := Checked.map_eq_ok_iff.1 (Option.some.inj hanswers)
    obtain ⟨rfl, hsecond⟩ := Prod.mk.inj heq
    have hrefused := Option.some.inj hrefusals
    simp only [hfirst] at hrefused
    obtain ⟨hlate, htwice⟩ := Prod.mk.inj (Except.ok.inj hrefused)
    obtain ⟨⟨_, next⟩, hsecond, rfl⟩ := Checked.map_eq_ok_iff.1 hsecond
    have hround := hhandles round (.processed .opened hfirst)
    refine ⟨opened, round, next, hopen, hfirst, hsecond, (hround _).gains next hsecond, ?_, ?_⟩
    · intro hadmits
      cases hlate.symm.trans ((hround _).passed_iff.2 hadmits)
    · intro hadmits
      cases htwice.symm.trans ((hround _).passed_iff.2 hadmits)

end Instance

end QuorumRounds.PriceOracle
