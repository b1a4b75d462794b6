import QuorumRounds.Proofs.Ballot.Decisions
import QuorumRounds.Proofs.Ballot.Order

/-! # Collection and tally in step

A ballot keeps its votes by sender and as a tally. It refuses second votes by the one and decides by
the other. A `Journal` remembers which transactions have been accepted, and over any run both follow
from these (`Took.journal`). So a threshold is met by the tally when it is met by the votes of the
collection, in the order of their senders (`Took.hasMajority_eq`).

Two ballots of one round whose collections match stand at the same point, in whatever order the
votes came (`Took.answers_eq`). -/

namespace QuorumRounds.Ballot
set_option autoImplicit false

variable {P κ : Type} [Ord κ] [Payload P κ] [DecidableEq κ] [Named κ]

/-! ## Any run -/

structure Journal (P κ : Type) [Ord κ] where
  ballot : Ballot P κ
  accepted : List (Transaction P)

/-- The transaction that the call has accepted, if it has. -/
def accepts (ballot : Ballot P κ) : Call P → List (Transaction P)
  | .process tx =>
    match ballot.process tx with
    | .ok _ => [tx]
    | .error _ => []
  | .check _ => []
  | .decide => []

def Journal.call (journal : Journal P κ) (c : Call P) : Checked (Journal P κ) :=
  (journal.ballot.call c).map fun answer =>
    ⟨answer.2, journal.accepted ++ accepts journal.ballot c⟩

def journal (ballot : Ballot P κ) (calls : List (Call P)) : Checked (Journal P κ) :=
  calls.foldlM Journal.call ⟨ballot, []⟩

namespace Took
variable {poll : Poll κ} {required : UInt64}

theorem journalCall {journal next : Journal P κ} {c : Call P}
    (h : journal.ballot.Took poll required journal.accepted) (hcall : journal.call c = .ok next) :
    next.ballot.Took poll required next.accepted := by
  obtain ⟨⟨verdicts, after⟩, hafter, rfl⟩ := Checked.map_eq_ok_iff.1 hcall
  cases c with
  | check tx =>
    cases hafter
    rw [accepts, List.append_nil]
    exact h
  | process tx =>
    cases hafter
    rw [accepts]
    cases hprocess : journal.ballot.process tx with
    | error e => simpa [Ballot.feed, hprocess] using h
    | ok after =>
      obtain ⟨hcheck, rfl⟩ := process_eq_ok_iff.1 hprocess
      simpa [Ballot.feed, hprocess] using h.accept hcheck
  | decide =>
    obtain ⟨reached, _, hrest⟩ := Checked.bind_eq_ok_iff.1 hafter
    obtain ⟨⟨decision, last⟩, hdecide, heq⟩ := Checked.bind_eq_ok_iff.1 hrest
    cases heq
    rw [accepts, List.append_nil]
    exact (h.decide hdecide).1

theorem journal {opened : Ballot P κ} {calls : List (Call P)} {journal : Journal P κ}
    (h : opened.Took poll required []) (hrun : opened.journal calls = .ok journal) :
    journal.ballot.Took poll required journal.accepted :=
  Checked.holds_of_foldlM (fun j : Journal P κ => j.ballot.Took poll required j.accepted)
    (fun _ _ _ => journalCall) h hrun

/-! ## The tally of a collection -/

variable [LawfulPayload P] {ballot other : Ballot P κ} {taken taken' : List (Transaction P)}

theorem hasMajority_eq (h : ballot.Took poll required taken) (threshold : Nat) :
    ballot.tally.hasMajority threshold =
      (Tally.ofVotes ballot.collection.entries).hasMajority threshold := by
  rw [h.tally_eq, h.collection_eq]
  apply Tally.hasMajority_perm h.took.perm_entries
  rw [map_fst_ballots]
  exact h.took.senders_nodup

theorem hasMajority_of_matching (h : ballot.Took poll required taken)
    (h' : other.Took poll required taken')
    (hmatching : Tally.Matching ballot.collection.entries other.collection.entries)
    (threshold : Nat) :
    ballot.tally.hasMajority threshold = other.tally.hasMajority threshold := by
  rw [h.hasMajority_eq, h'.hasMajority_eq]
  exact hmatching.hasMajority_eq ballot.collection.nodup_keys threshold

theorem answers_eq (h : ballot.Took poll required taken) (h' : other.Took poll required taken')
    (hmatching : Tally.Matching ballot.collection.entries other.collection.entries) :
    ballot.isReached = other.isReached ∧ ballot.isMajorityPossible = other.isMajorityPossible := by
  have hmajority := h.hasMajority_of_matching h' hmatching
  have hkeys : ballot.collection.keys = other.collection.keys := hmatching.map_fst_eq
  have hdomain : ballot.collection.domain = other.collection.domain := by
    ext s
    rw [SortedMap.mem_domain, SortedMap.mem_domain, SortedMap.contains_iff_mem_keys,
      SortedMap.contains_iff_mem_keys, hkeys]
  have hvoters : ballot.tally.voters.size = other.tally.voters.size := by
    rw [← SortedMap.card_domain, ← SortedMap.card_domain, h.voters_eq, h'.voters_eq, hdomain]
  have hreached : ballot.reachedAt = other.reachedAt := funext hmajority
  have hpossible : ballot.isPossibleAt = other.isPossibleAt := by
    funext threshold
    rw [isPossibleAt, isPossibleAt, hreached, Tally.isMajorityPossible, Tally.isMajorityPossible,
      Tally.mostVotes_congr hmajority, hvoters, h.poll_eq, h'.poll_eq]
  rw [isReached, isReached, isMajorityPossible, isMajorityPossible, h.poll_eq, h'.poll_eq, hreached,
    hpossible]
  exact ⟨rfl, rfl⟩

theorem le_countP_iff (h : ballot.Took poll required taken) {p : P} {n : Nat} (hn : 1 ≤ n) :
    n ≤ ballot.collection.values.countP (Payload.same p) ↔
      ∃ c ∈ ballot.tally.candidates, Payload.same p c.1 = true ∧ n ≤ c.2.size := by
  have hnodup := h.took.senders_nodup
  rw [← map_fst_ballots] at hnodup
  have hcount : ballot.collection.values.countP (Payload.same p) =
      (ballots taken).countP fun v => Payload.same p v.2 := by
    rw [SortedMap.values, List.countP_map, h.collection_eq, ← h.took.perm_entries.countP_eq]
    rfl
  rw [hcount, h.tally_eq]
  exact (Tally.groups_ofVotes hnodup).le_countP_iff hnodup hn

end Took

theorem collection_and_tally_in_step [LawfulPayload P] {roundId : String} {allowed : κ}
    {context : RoundContext κ} {opened : Ballot P κ} {calls : List (Call P)}
    {reached : Journal P κ} (hopen : ofContext roundId allowed context = .ok opened)
    (hrun : opened.journal calls = .ok reached) :
    reached.ballot.tally.voters.domain = reached.ballot.collection.domain ∧
      reached.ballot.collection.domain ⊆ opened.poll.participants.domain ∧
      reached.ballot.tally = Tally.ofVotes (ballots reached.accepted) ∧
      (∀ p n, 1 ≤ n → (n ≤ reached.ballot.collection.values.countP (Payload.same p) ↔
        ∃ c ∈ reached.ballot.tally.candidates, Payload.same p c.1 = true ∧ n ≤ c.2.size)) ∧
      ∀ others other, opened.journal others = .ok other →
        Tally.Matching reached.ballot.collection.entries other.ballot.collection.entries →
        reached.ballot.isReached = other.ballot.isReached ∧
          reached.ballot.isMajorityPossible = other.ballot.isMajorityPossible := by
  have hopened := took_ofContext hopen
  have h := hopened.journal hrun
  refine ⟨h.voters_eq, ?_, h.tally_eq, fun p n => h.le_countP_iff, ?_⟩
  · rw [h.collection_eq]
    exact h.took.senders_subset
  · intro others other hother hmatching
    exact h.answers_eq (hopened.journal hother) hmatching

section Instance

/-- The votes of `someCalls` in another order, with zeros of other signs, and one of a stranger. -/
def otherCalls : List (Call PriceOracle.Payload) :=
  [.process ⟨"d", oneEstimate⟩, .process ⟨"e", zeroEstimate⟩, .process ⟨"c", negativeZeroEstimate⟩,
    .decide, .process ⟨"b", zeroEstimate⟩, .process ⟨"a", zeroEstimate⟩]

theorem collection_and_tally_in_step_for_four :
    ∃ reached other, openedByFour.journal someCalls = .ok reached ∧
      openedByFour.journal otherCalls = .ok other ∧
      reached.ballot.collection ≠ other.ballot.collection ∧
      reached.ballot.tally = Tally.ofVotes (ballots reached.accepted) ∧
      (∃ c ∈ reached.ballot.tally.candidates,
        Payload.same negativeZeroEstimate c.1 = true ∧ 3 ≤ c.2.size) ∧
      reached.ballot.isReached = other.ballot.isReached ∧
      reached.ballot.isMajorityPossible = other.ballot.isMajorityPossible := by
  have hsome : (openedByFour.journal someCalls).map (·.ballot.collection.entries) =
      .ok [("a", zeroEstimate), ("b", negativeZeroEstimate), ("c", zeroEstimate),
        ("d", oneEstimate)] := by
    decide +kernel
  have hothers : (openedByFour.journal otherCalls).map (·.ballot.collection.entries) =
      .ok [("a", zeroEstimate), ("b", zeroEstimate), ("c", negativeZeroEstimate),
        ("d", oneEstimate)] := by
    decide +kernel
  obtain ⟨reached, hrun, hentries⟩ := Checked.map_eq_ok_iff.1 hsome
  obtain ⟨other, hother, hentries'⟩ := Checked.map_eq_ok_iff.1 hothers
  have hopen : ofContext "estimate_consensus" .estimate fourParticipants = .ok openedByFour := rfl
  obtain ⟨-, -, htally, hcount, halike⟩ := collection_and_tally_in_step hopen hrun
  have hmatching : Tally.Matching reached.ballot.collection.entries
      other.ballot.collection.entries := by
    rw [hentries, hentries']
    exact .cons ⟨rfl, .inl rfl⟩ (.cons ⟨rfl, .inr (by decide)⟩
      (.cons ⟨rfl, .inr (by decide)⟩ (.cons ⟨rfl, .inl rfl⟩ .nil)))
  have hthree : 3 ≤ reached.ballot.collection.values.countP
      (Payload.same negativeZeroEstimate) := by
    rw [SortedMap.values, hentries]
    decide
  refine ⟨reached, other, hrun, hother, fun hsame => ?_, htally,
    (hcount _ 3 (by decide)).1 hthree, halike _ other hother hmatching⟩
  rw [hsame, hentries'] at hentries
  revert hentries
  decide

end Instance

end QuorumRounds.Ballot
