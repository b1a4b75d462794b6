import QuorumRounds.Proofs.Ballot.Reach
import QuorumRounds.Proofs.PriceOracle.Sound
import QuorumRounds.Proofs.PriceOracle.Winnable

/-! # What a round of the price oracle adds up

A round counts the blocks for which it holds its decision back, and names the period after that of its
store. Both are at most `k` in a round that has `Spent k`, and the end of a block spends one more
(`Spent.endBlock`). While there is one left to spend, nothing in a round overflows (`exists_check`,
`exists_process`, `exists_endBlock`).

`Round.sum` is what a round compares with the number that it needs, to find out whether a majority is
still possible (`isMajorityPossible_of_sum`). It is at most the number of participants
(`Took.exists_sum`). -/

namespace QuorumRounds
set_option autoImplicit false

theorem Word.reach_eq_ok_iff {votes heard everyone : Nat} {total : UInt64} :
    reach votes heard everyone = .ok total ↔
      heard ≤ everyone ∧ total.toNat = votes + (everyone - heard) := by
  have htotal := toNat_lt_size total
  unfold reach
  split
  case isTrue h =>
    rw [Except.ok.injEq, ← UInt64.toNat_inj, UInt64.toNat_ofNat_of_lt' h.2]
    exact ⟨fun heq => ⟨h.1, heq.symm⟩, fun heq => heq.2.symm⟩
  case isFalse h =>
    simp only [reduceCtorEq, false_iff]
    omega

theorem Word.exists_reach {votes heard everyone : Nat} (hheard : heard ≤ everyone)
    (h : votes + (everyone - heard) < UInt64.size) :
    ∃ total, reach votes heard everyone = .ok total := ⟨_, if_pos ⟨hheard, h⟩⟩

/-- Waiting for everyone asks for no threshold. -/
theorem Gathering.required_of_threshold {P κ : Type} [Ord κ] {gathering : Gathering P κ} {threshold : Nat}
    (ht : gathering.poll.threshold = .ok threshold) :
    ∃ needed, gathering.required = .ok needed := by
  cases hquota : gathering.quota with
  | threshold =>
    rw [required, hquota]
    exact ⟨threshold, ht⟩
  | everyone =>
    rw [required, hquota]
    exact ⟨_, rfl⟩

namespace PriceOracle.Round

/-! ## Sums -/

theorem isMajorityPossible_of_sum {round : Round} {total : UInt64} (hsum : round.sum = .ok total) :
    round.isMajorityPossible = round.needed.map fun needed => decide (needed ≤ total.toNat) := by
  have hgathering : ∀ {gathering : Gathering Payload Kind}, gathering.sum = .ok total →
      gathering.isMajorityPossible =
        gathering.required.map fun needed => decide (needed ≤ total.toNat) := by
    intro gathering hreach
    rw [(Word.reach_eq_ok_iff.1 hreach).2]
    rfl
  have hballot : ∀ {ballot : Ballot Payload Kind}, ballot.sum = .ok total →
      ballot.isMajorityPossible =
        ballot.poll.threshold.map fun needed => decide (needed ≤ total.toNat) := by
    intro ballot hreach
    rw [(Word.reach_eq_ok_iff.1 hreach).2, Ballot.isMajorityPossible]
    congr 1
    funext needed
    exact ballot.isPossibleAt_eq needed
  cases round with
  | registration gathering => exact hgathering hsum
  | collectObservation gathering => exact hgathering hsum
  | estimateConsensus ballot => exact hballot hsum
  | reset ballot keys depth => exact hballot hsum

theorem exists_needed {round : Round} {threshold : Nat} (ht : round.poll.threshold = .ok threshold) :
    ∃ needed, round.needed = .ok needed := by
  cases round with
  | registration gathering => exact Gathering.required_of_threshold ht
  | collectObservation gathering => exact Gathering.required_of_threshold ht
  | estimateConsensus ballot => exact ⟨threshold, ht⟩
  | reset ballot keys depth => exact ⟨threshold, ht⟩

/-- Nobody is heard twice, so that there are no more votes than participants. -/
theorem Took.exists_sum {depth required : UInt64} {poll : Poll Kind}
    {taken : List (Transaction Payload)} {kind : RoundKind} {round : Round}
    (h : round.Took depth poll required taken kind)
    (hsize : poll.participants.size < UInt64.size) : ∃ total, round.sum = .ok total := by
  have hheard := h.poll_took.size_le
  have hgathering : ∀ {gathering : Gathering Payload Kind} {quota : Quota},
      gathering.Took poll quota required taken →
        ∃ total, (Round.registration gathering).sum = .ok total := by
    intro gathering quota htook
    rw [← htook.collection_eq, ← htook.poll_eq] at hheard
    rw [← htook.poll_eq] at hsize
    exact Word.exists_reach hheard (by omega)
  have hballot : ∀ {ballot : Ballot Payload Kind}, ballot.Took poll required taken →
      ∃ total, (Round.estimateConsensus ballot).sum = .ok total := by
    intro ballot htook
    have hbest := Ballot.potential_le htook.took
    rw [Ballot.potential, ← htook.tally_eq, ← htook.voters_size, ← htook.poll_eq] at hbest
    rw [← htook.poll_eq] at hsize
    have hvoters := htook.voters_size_le
    rw [← htook.poll_eq] at hvoters
    exact Word.exists_reach hvoters (by omega)
  cases h with
  | registration h => exact hgathering h
  | collectObservation h => exact hgathering h
  | estimateConsensus h => exact hballot h
  | reset h => exact hballot h

/-! ## What a round has spent -/

def confirmations : Round → Confirmations
  | .registration gathering | .collectObservation gathering => gathering.confirmations
  | .estimateConsensus ballot | .reset ballot _ _ => ballot.confirmations

structure Spent (k : Nat) (round : Round) : Prop where
  seen_le : round.confirmations.seen.toNat ≤ k
  period_le : round.store.period.toNat ≤ k

variable {round after : Round} {k : Nat}

theorem Spent.grow (h : round.Spent k) : round.Spent (k + 1) :=
  ⟨Nat.le_succ_of_le h.seen_le, Nat.le_succ_of_le h.period_le⟩

theorem spent_of_build {depth : UInt64} {kind : RoundKind} {context : RoundContext Kind}
    (h : buildRound crossPeriodKeys depth kind context = .ok round)
    (hperiod : context.store.period.toNat ≤ k) : round.Spent k := by
  obtain ⟨participants, hread⟩ := exists_participants_of_build h
  rw [buildRound_eq hread] at h
  cases h
  cases kind <;> exact ⟨Nat.zero_le k, hperiod⟩

theorem Spent.accept (h : round.Spent k) (tx : Transaction Payload) : (round.accept tx).Spent k := by
  cases round <;> exact ⟨h.seen_le, h.period_le⟩

theorem Spent.process (h : round.Spent k) {tx : Transaction Payload}
    {answer : Except InternalError Unit} (hprocess : round.process tx = .ok (answer, after)) :
    after.Spent k := by
  rcases process_cases hprocess with ⟨_, rfl⟩ | ⟨_, rfl⟩
  · exact h.accept tx
  · exact h

theorem period_of_handOn {α : Type} {store next : Store} {event : Event} {decision : Decision α}
    {result : α → Checked Store} (hstore : store.period.toNat ≤ k)
    (hresult : ∀ value made, result value = .ok made → made.period.toNat ≤ k + 1)
    (h : handOn store decision result = .ok (some (next, event))) : next.period.toNat ≤ k + 1 := by
  cases decision with
  | pending => cases h
  | noMajority =>
    cases h
    exact Nat.le_succ_of_le hstore
  | reached value =>
    obtain ⟨made, hmade, heq⟩ := Checked.map_eq_ok_iff.1 h
    cases heq
    exact hresult value _ hmade

/-- A decision spends one block of confirmation. -/
theorem spent_of_gathering {gathering asked : Gathering Payload Kind}
    {decision : Decision (SortedMap String Payload)} (h : (registration gathering).Spent k)
    (hdecide : gathering.decide = .ok (decision, asked)) : (registration asked).Spent (k + 1) := by
  have hseen := Gathering.seen_of_decide hdecide
  obtain ⟨_, _, _, _, rfl, _⟩ := Gathering.decide_eq_ok hdecide
  exact ⟨Nat.le_trans hseen (Nat.succ_le_succ h.seen_le), h.grow.period_le⟩

theorem spent_of_ballot {ballot asked : Ballot Payload Kind} {decision : Decision Payload}
    (h : (estimateConsensus ballot).Spent k) (hdecide : ballot.decide = .ok (decision, asked)) :
    (estimateConsensus asked).Spent (k + 1) := by
  have hseen := Ballot.seen_of_decide hdecide
  obtain ⟨_, _, _, _, rfl, _⟩ := Ballot.decide_eq_ok hdecide
  exact ⟨Nat.le_trans hseen (Nat.succ_le_succ h.seen_le), h.grow.period_le⟩

theorem spent_of_handedOn {α β : Type} {ask : Checked (Decision α × β)} {store : Store}
    {result : α → Checked Store} (rebuild : β → Round) {outcome : Option (Store × Event)}
    (hasked : ∀ decision asked, ask = .ok (decision, asked) → (rebuild asked).Spent (k + 1))
    (hstore : store.period.toNat ≤ k)
    (hresult : ∀ value made, result value = .ok made → made.period.toNat ≤ k + 1)
    (h : (do
      let (decision, asked) ← ask
      let outcome ← handOn store decision result
      pure (outcome, rebuild asked)) = Except.ok (outcome, after)) :
    after.Spent (k + 1) ∧
      ∀ next event, outcome = some (next, event) → next.period.toNat ≤ k + 1 := by
  obtain ⟨decision, asked, hask, hmade, rfl⟩ := handedOn_eq_ok rebuild h
  refine ⟨hasked decision asked hask, ?_⟩
  rintro next event rfl
  exact period_of_handOn hstore hresult hmade

/-- Only a reset opens a period, and it opens the next one. -/
theorem Spent.endBlock (h : round.Spent k) {outcome : Option (Store × Event)}
    (hend : round.endBlock = .ok (outcome, after)) :
    after.Spent (k + 1) ∧
      ∀ store event, outcome = some (store, event) → store.period.toNat ≤ k + 1 := by
  have hupdate : ∀ updates made,
      (Except.ok (round.store.update updates) : Checked Store) = .ok made →
        made.period.toNat ≤ k + 1 := by
    rintro updates made ⟨⟩
    exact h.grow.period_le
  cases round with
  | registration gathering =>
    refine spent_of_handedOn .registration ?_ h.period_le (fun _ => hupdate _) hend
    intro decision asked hdecide
    exact spent_of_gathering h hdecide
  | collectObservation gathering =>
    refine spent_of_handedOn .collectObservation ?_ h.period_le (fun _ => hupdate _) hend
    intro decision asked hdecide
    have hasked := spent_of_gathering ⟨h.seen_le, h.period_le⟩ hdecide
    exact ⟨hasked.seen_le, hasked.period_le⟩
  | estimateConsensus ballot =>
    refine spent_of_handedOn .estimateConsensus ?_ h.period_le (fun _ => hupdate _) hend
    intro decision asked hdecide
    exact spent_of_ballot h hdecide
  | reset ballot keys depth =>
    refine spent_of_handedOn (.reset · keys depth) ?_ h.period_le ?_ hend
    · intro decision asked hdecide
      have hasked := spent_of_ballot ⟨h.seen_le, h.period_le⟩ hdecide
      exact ⟨hasked.seen_le, hasked.period_le⟩
    · intro _ made hok
      obtain ⟨opened, hopen, rfl⟩ := Checked.map_eq_ok_iff.1 hok
      rw [Store.period_cleanup, Word.succ_eq_ok_iff.1 (Store.create_eq_ok hopen).1]
      exact Nat.succ_le_succ h.period_le

/-! ## Nothing overflows -/

theorem Spent.exists_checkTimely (h : round.Spent k) (hk : k + 1 < UInt64.size)
    (tx : Transaction Payload) : ∃ answer, round.checkTimely tx = .ok answer := by
  obtain ⟨next, hnext⟩ := Word.exists_succ (Nat.lt_of_le_of_lt (Nat.succ_le_succ h.period_le) hk)
  cases round with
  | registration | collectObservation | estimateConsensus => exact ⟨_, rfl⟩
  | reset ballot keys depth => exact exists_checkPeriod hnext tx.payload

theorem Spent.exists_check (h : round.Spent k) (hk : k + 1 < UInt64.size)
    (tx : Transaction Payload) : ∃ answer, round.check tx = .ok answer := by
  rw [check_eq]
  cases round.checkCommon tx with
  | error reason => exact ⟨_, rfl⟩
  | ok _ => exact h.exists_checkTimely hk tx

theorem Spent.exists_process (h : round.Spent k) (hk : k + 1 < UInt64.size)
    (tx : Transaction Payload) : ∃ answer after, round.process tx = .ok (answer, after) := by
  obtain ⟨timely, htimely⟩ := h.exists_checkTimely hk tx
  exact exists_process_of_checkTimely htimely

theorem exists_handedOn {α β : Type} {ask : Checked (Decision α × β)} {decision : Decision α}
    {asked : β} {store : Store} {result : α → Checked Store} (rebuild : β → Round)
    (hask : ask = .ok (decision, asked)) (hresult : ∀ value, ∃ made, result value = .ok made) :
    ∃ outcome after, (do
      let (decision, asked) ← ask
      let outcome ← handOn store decision result
      pure (outcome, rebuild asked)) = Except.ok (outcome, after) := by
  obtain ⟨outcome, houtcome⟩ := Voting.exists_handOn store decision result hresult
  refine ⟨outcome, rebuild asked, ?_⟩
  simp only [hask, Checked.ok_bind, houtcome]
  rfl

theorem Spent.exists_endBlock (h : round.Spent k) (hk : k + 1 < UInt64.size) {threshold : Nat}
    (ht : round.poll.threshold = .ok threshold) :
    ∃ outcome after, round.endBlock = .ok (outcome, after) := by
  have hseen := Nat.lt_of_le_of_lt (Nat.succ_le_succ h.seen_le) hk
  have hperiod := Nat.lt_of_le_of_lt (Nat.succ_le_succ h.period_le) hk
  have hgathering : ∀ {gathering : Gathering Payload Kind},
      gathering.poll.threshold = .ok threshold →
      gathering.confirmations.seen.toNat + 1 < UInt64.size →
      ∃ decision after, gathering.decide = .ok (decision, after) := by
    intro gathering hthreshold hfits
    obtain ⟨needed, hneeded⟩ := Gathering.required_of_threshold hthreshold
    exact Gathering.exists_decide hneeded hfits
  cases round with
  | registration gathering =>
    obtain ⟨decision, asked, hdecide⟩ := hgathering ht hseen
    exact exists_handedOn .registration hdecide fun _ => ⟨_, rfl⟩
  | collectObservation gathering =>
    obtain ⟨decision, asked, hdecide⟩ := hgathering ht hseen
    exact exists_handedOn .collectObservation hdecide fun _ => ⟨_, rfl⟩
  | estimateConsensus ballot =>
    obtain ⟨decision, asked, hdecide, _⟩ := Ballot.exists_decide ht hseen
    exact exists_handedOn .estimateConsensus hdecide fun _ => ⟨_, rfl⟩
  | reset ballot keys depth =>
    obtain ⟨decision, asked, hdecide, _⟩ := Ballot.exists_decide ht hseen
    obtain ⟨opened, hopen⟩ := Store.exists_create keys hperiod
    exact exists_handedOn (.reset · keys depth) hdecide fun _ =>
      ⟨_, Checked.map_eq_ok_iff.2 ⟨opened, hopen, rfl⟩⟩

end PriceOracle.Round

end QuorumRounds
