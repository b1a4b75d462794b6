import QuorumRounds.Proofs.Round.Confirmations
import QuorumRounds.Proofs.Round.Poll
import QuorumRounds.Round.Gathering

/-! # What a gathering holds

A gathering keeps the payloads that it has taken, by sender (`Gathering.Took`). Its outcome is all of
them, at least as many as its quota (`Took.decide`). -/

namespace QuorumRounds.Gathering
set_option autoImplicit false

variable {P κ : Type} [Ord κ] [Payload P κ] [DecidableEq κ] [Named κ]

omit [Payload P κ] [DecidableEq κ] [Named κ] in
theorem ofContext_eq_ok_iff {quota : Quota} {roundId : String} {allowed : κ}
    {context : RoundContext κ} {gathering : Gathering P κ} :
    ofContext quota roundId allowed context = .ok gathering ↔
      ∃ poll, Poll.ofContext roundId allowed context = .ok poll ∧
        gathering = ⟨poll, quota, ∅, .ofRequired context.requiredConfirmations⟩ := by
  unfold ofContext
  cases Poll.ofContext roundId allowed context with
  | error e => simp [Except.map]
  | ok poll => simp [Except.map, eq_comm]

/-! ## Payloads -/

theorem check_eq_ok_iff {gathering : Gathering P κ} {tx : Transaction P} :
    gathering.check tx = .ok () ↔
      gathering.poll.check tx = .ok () ∧ gathering.collection.contains tx.sender = false := by
  unfold check
  cases gathering.poll.check tx with
  | error reason => simp
  | ok _ =>
    cases hsent : gathering.collection.contains tx.sender <;> simp

theorem process_eq_ok_iff {gathering after : Gathering P κ} {tx : Transaction P} :
    gathering.process tx = .ok after ↔
      gathering.check tx = .ok () ∧ after = gathering.accept tx := by
  unfold process
  cases gathering.check tx with
  | error reason => simp
  | ok _ => simp [eq_comm]

/-- Nobody is refused for what another one has sent. -/
theorem check_accept {gathering : Gathering P κ} {tx other : Transaction P}
    (h : tx.sender ≠ other.sender) : (gathering.accept tx).check other = gathering.check other := by
  simp only [check, accept, SortedMap.contains_insert_of_ne _ h.symm]

structure Took (gathering : Gathering P κ) (poll : Poll κ) (quota : Quota) (required : UInt64)
    (taken : List (Transaction P)) : Prop where
  poll_eq : gathering.poll = poll
  quota_eq : gathering.quota = quota
  required_eq : gathering.confirmations.required = required
  took : poll.Took taken
  collection_eq : gathering.collection = collected taken

theorem Took.accept {gathering : Gathering P κ} {poll : Poll κ} {quota : Quota} {required : UInt64}
    {taken : List (Transaction P)} {tx : Transaction P}
    (h : gathering.Took poll quota required taken) (hcheck : gathering.check tx = .ok ()) :
    (gathering.accept tx).Took poll quota required (taken ++ [tx]) := by
  obtain ⟨hpass, hnew⟩ := check_eq_ok_iff.1 hcheck
  rw [h.poll_eq] at hpass
  rw [h.collection_eq] at hnew
  refine ⟨h.poll_eq, h.quota_eq, h.required_eq, h.took.concat hpass hnew, ?_⟩
  rw [collected_concat, ← h.collection_eq]
  rfl

/-! ## Outcome -/

section Outcome
omit [Payload P κ] [DecidableEq κ] [Named κ]
variable {gathering : Gathering P κ}

theorem required_congr {other : Gathering P κ} (hpoll : other.poll = gathering.poll)
    (hquota : other.quota = gathering.quota) : other.required = gathering.required := by
  rw [required, required, hpoll, hquota]

/-- Past the quota every question counts a block of confirmation. -/
theorem decide_of_reached {needed : Nat} (hneeded : gathering.required = .ok needed)
    (h : needed ≤ gathering.collection.size) :
    gathering.decide = gathering.confirmations.tick.map fun confirmations =>
      (if confirmations.isComplete then .reached gathering.collection else .pending,
        { gathering with confirmations := confirmations }) := by
  have hreached : gathering.reachedAt needed = true := decide_eq_true h
  rw [decide, hneeded, Checked.ok_bind, if_pos hreached]
  cases gathering.confirmations.tick with
  | error e => rfl
  | ok confirmations =>
    change (if confirmations.isComplete then _ else _ : Checked _) =
      .ok (if confirmations.isComplete then _ else _, _)
    cases confirmations.isComplete <;> rfl

theorem decide_of_short {needed : Nat} (hneeded : gathering.required = .ok needed)
    (h : gathering.collection.size < needed) :
    gathering.decide =
      .ok (if gathering.isPossibleAt needed then .pending else .noMajority, gathering) := by
  have hshort : gathering.reachedAt needed = false := decide_eq_false (Nat.not_le_of_lt h)
  rw [decide, hneeded, Checked.ok_bind, hshort]
  cases gathering.isPossibleAt needed <;> rfl

theorem decide_eq_ok {decision : Decision (SortedMap String P)} {after : Gathering P κ}
    (h : gathering.decide = .ok (decision, after)) :
    ∃ needed confirmations, gathering.required = .ok needed ∧
      confirmations.required = gathering.confirmations.required ∧
      after = { gathering with confirmations := confirmations } ∧
      (decision = .pending ∨
        decision = .noMajority ∧ gathering.isPossibleAt needed = false ∨
        decision = .reached gathering.collection ∧ needed ≤ gathering.collection.size) := by
  obtain ⟨needed, hneeded, -⟩ := Checked.bind_eq_ok_iff.1 h
  by_cases hreached : needed ≤ gathering.collection.size
  · rw [decide_of_reached hneeded hreached] at h
    obtain ⟨confirmations, htick, heq⟩ := Checked.map_eq_ok_iff.1 h
    obtain ⟨rfl, rfl⟩ := Prod.mk.inj heq
    refine ⟨needed, confirmations, hneeded, (Confirmations.tick_eq_ok_iff.1 htick).1, rfl, ?_⟩
    cases confirmations.isComplete with
    | true => exact .inr (.inr ⟨rfl, hreached⟩)
    | false => exact .inl rfl
  · rw [decide_of_short hneeded (Nat.lt_of_not_le hreached), Except.ok.injEq, Prod.mk.injEq] at h
    obtain ⟨rfl, rfl⟩ := h
    refine ⟨needed, gathering.confirmations, hneeded, rfl, rfl, ?_⟩
    cases hpossible : gathering.isPossibleAt needed with
    | true => exact .inl rfl
    | false => exact .inr (.inl ⟨rfl, rfl⟩)

theorem seen_of_decide {decision : Decision (SortedMap String P)} {after : Gathering P κ}
    (h : gathering.decide = .ok (decision, after)) :
    after.confirmations.seen.toNat ≤ gathering.confirmations.seen.toNat + 1 := by
  obtain ⟨needed, hneeded, -⟩ := Checked.bind_eq_ok_iff.1 h
  by_cases hreached : needed ≤ gathering.collection.size
  · rw [decide_of_reached hneeded hreached] at h
    obtain ⟨confirmations, htick, heq⟩ := Checked.map_eq_ok_iff.1 h
    obtain ⟨-, rfl⟩ := Prod.mk.inj heq
    exact Nat.le_of_eq (Confirmations.tick_eq_ok_iff.1 htick).2
  · rw [decide_of_short hneeded (Nat.lt_of_not_le hreached), Except.ok.injEq, Prod.mk.injEq] at h
    obtain ⟨-, rfl⟩ := h
    exact Nat.le_succ _

/-- As long as another block of confirmation fits the counter, a decision is made. -/
theorem exists_decide {needed : Nat} (hneeded : gathering.required = .ok needed)
    (hseen : gathering.confirmations.seen.toNat + 1 < UInt64.size) :
    ∃ decision after, gathering.decide = .ok (decision, after) := by
  by_cases hreached : needed ≤ gathering.collection.size
  · obtain ⟨confirmations, htick⟩ := Confirmations.exists_tick hseen
    rw [decide_of_reached hneeded hreached, htick]
    exact ⟨_, _, rfl⟩
  · exact ⟨_, _, decide_of_short hneeded (Nat.lt_of_not_le hreached)⟩

/-- Everyone could always still contribute. -/
theorem isPossibleAt_everyone (gathering : Gathering P κ) :
    gathering.isPossibleAt gathering.poll.participants.size = true := by
  rw [isPossibleAt, decide_eq_true_eq, Poll.remaining]
  omega

/-- A gathering that cannot get enough payloads any more is given up. -/
theorem decide_of_impossible {needed : Nat} (hneeded : gathering.required = .ok needed)
    (h : gathering.isPossibleAt needed = false) : gathering.decide = .ok (.noMajority, gathering) := by
  have hshort : gathering.collection.size < needed := by
    rw [isPossibleAt, decide_eq_false_iff_not] at h
    omega
  rw [decide_of_short hneeded hshort, h]
  rfl

theorem isPossibleAt_of_decide {after : Gathering P κ} {needed : Nat}
    (hneeded : gathering.required = .ok needed)
    (h : gathering.decide = .ok (.noMajority, after)) : gathering.isPossibleAt needed = false := by
  obtain ⟨needed', _, hneeded', _, _, hcases⟩ := decide_eq_ok h
  cases hneeded.symm.trans hneeded'
  rcases hcases with hf | ⟨_, himpossible⟩ | ⟨hf, _⟩
  · cases hf
  · exact himpossible
  · cases hf

end Outcome

/-- All the participants could always still contribute, and nobody else. -/
theorem Took.isPossibleAt_iff {gathering : Gathering P κ} {poll : Poll κ} {quota : Quota}
    {required : UInt64} {taken : List (Transaction P)} {needed : Nat}
    (h : gathering.Took poll quota required taken) :
    gathering.isPossibleAt needed = true ↔ needed ≤ poll.participants.size := by
  have hsize := h.took.size_le
  rw [isPossibleAt, decide_eq_true_eq, Poll.remaining, h.poll_eq, h.collection_eq]
  omega

/-- A gathering is given up only if more payloads are needed than there are participants. -/
theorem Took.decide_ne_noMajority {gathering after : Gathering P κ} {poll : Poll κ} {quota : Quota}
    {required : UInt64} {taken : List (Transaction P)} {needed : Nat}
    (h : gathering.Took poll quota required taken) (hneeded : gathering.required = .ok needed)
    (henough : needed ≤ poll.participants.size) :
    gathering.decide ≠ .ok (.noMajority, after) := by
  intro hdecide
  have hpossible := h.isPossibleAt_iff.2 henough
  rw [isPossibleAt_of_decide hneeded hdecide] at hpossible
  cases hpossible

/-- The outcome is everything that has been taken. Waiting for everyone always ends with one. -/
theorem Took.decide {gathering after : Gathering P κ} {poll : Poll κ} {quota : Quota}
    {required : UInt64} {taken : List (Transaction P)}
    {decision : Decision (SortedMap String P)} (h : gathering.Took poll quota required taken)
    (hdecide : gathering.decide = .ok (decision, after)) :
    after.Took poll quota required taken ∧
      (decision = .pending ∨ decision = .noMajority ∧ quota = .threshold ∨
        decision = .reached (collected taken) ∧
          (quota = .threshold → ∃ threshold, poll.threshold = .ok threshold ∧
            threshold ≤ (collected taken).size) ∧
          (quota = .everyone → poll.participants.size ≤ (collected taken).size)) := by
  obtain ⟨needed, confirmations, hneeded, hrequired, rfl, hdecision⟩ := decide_eq_ok hdecide
  refine ⟨⟨h.poll_eq, h.quota_eq, hrequired.trans h.required_eq, h.took, h.collection_eq⟩, ?_⟩
  rw [Gathering.required, h.quota_eq] at hneeded
  rcases hdecision with hpending | ⟨hnone, himpossible⟩ | ⟨hreached, hle⟩
  · exact .inl hpending
  · cases quota with
    | threshold => exact .inr (.inl ⟨hnone, rfl⟩)
    | everyone =>
      have heveryone := gathering.isPossibleAt_everyone
      rw [Except.ok.inj hneeded, himpossible] at heveryone
      cases heveryone
  · rw [h.collection_eq] at hreached hle
    rw [h.poll_eq] at hneeded
    refine .inr (.inr ⟨hreached, ?_, ?_⟩)
    · rintro rfl
      exact ⟨needed, hneeded, hle⟩
    · rintro rfl
      rw [Except.ok.inj hneeded]
      exact hle

/-! ## Gatherings of the same payloads -/

section Same
omit [Payload P κ] [DecidableEq κ] [Named κ]

/-- The same payloads of the same senders, among the same participants. -/
structure SamePayloads (gathering other : Gathering P κ) : Prop where
  params_eq : gathering.poll.params = other.poll.params
  participants_eq : gathering.poll.participants = other.poll.participants
  quota_eq : gathering.quota = other.quota
  collection_eq : gathering.collection = other.collection
  confirmations_eq : gathering.confirmations = other.confirmations

theorem SamePayloads.decide {gathering other : Gathering P κ} (h : SamePayloads gathering other) :
    Checked.Both (fun x y => x.1 = y.1 ∧ ∃ confirmations,
        x.2 = { gathering with confirmations := confirmations } ∧
        y.2 = { other with confirmations := confirmations })
      gathering.decide other.decide := by
  have hrequired : other.required = gathering.required := by
    rw [required, required, h.quota_eq, h.participants_eq, Poll.threshold, Poll.threshold,
      h.params_eq]
  rw [Gathering.decide, Gathering.decide, hrequired]
  apply Checked.Both.bind (Checked.Both.of_eq rfl fun _ _ => rfl)
  rintro needed _ rfl
  have hreached : other.reachedAt needed = gathering.reachedAt needed := by
    rw [reachedAt, reachedAt, h.collection_eq]
  have hpossible : other.isPossibleAt needed = gathering.isPossibleAt needed := by
    rw [isPossibleAt, isPossibleAt, Poll.remaining, Poll.remaining, h.collection_eq,
      h.participants_eq]
  rw [hreached, hpossible, ← h.confirmations_eq]
  by_cases hquota : gathering.reachedAt needed = true
  · rw [if_pos hquota, if_pos hquota]
    apply Checked.Both.bind (Checked.Both.of_eq rfl fun _ _ => rfl)
    rintro confirmations _ rfl
    cases confirmations.isComplete
    · exact .ok ⟨rfl, confirmations, rfl, rfl⟩
    · exact .ok ⟨congrArg Decision.reached h.collection_eq, confirmations, rfl, rfl⟩
  · rw [if_neg hquota, if_neg hquota]
    have hother : other = { other with confirmations := gathering.confirmations } := by
      rw [h.confirmations_eq]
    cases gathering.isPossibleAt needed
    · exact .ok ⟨rfl, gathering.confirmations, rfl, hother⟩
    · exact .ok ⟨rfl, gathering.confirmations, rfl, hother⟩

end Same

end QuorumRounds.Gathering
