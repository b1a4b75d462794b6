import QuorumRounds.Proofs.Ballot.Agreement

/-! # What a ballot decides, over any run

A run of a ballot checks and processes transactions and asks for decisions, in any order. Each
question is remembered as a `Verdict`: whether the threshold had been reached, and the answer.

* `run_grows`: no call loses a candidate or a vote for one.
* `Decides`: what the verdicts of a run are, given the ballot that it has led to.

Once the threshold is reached, the leading payload stays the same, and the questions asked since then
are held back for the required number and then answered with it. -/

namespace QuorumRounds.Ballot
set_option autoImplicit false

variable {P κ : Type} [Ord κ] [Payload P κ] [DecidableEq κ] [Named κ]

inductive Call (P : Type) where
  | check (tx : Transaction P)
  | process (tx : Transaction P)
  | decide

structure Verdict (P : Type) where
  reached : Bool
  decision : Decision P

/-- The answers to the questions that were asked when the threshold had been reached. -/
def late (verdicts : List (Verdict P)) : List (Decision P) :=
  (verdicts.filter (·.reached)).map (·.decision)

/-- A transaction that is checked, or refused when it is processed, leaves the ballot as it was. -/
def call (ballot : Ballot P κ) : Call P → Checked (List (Verdict P) × Ballot P κ)
  | .check _ => .ok ([], ballot)
  | .process tx => .ok ([], ballot.feed [tx])
  | .decide => do
    let reached ← ballot.isReached
    let (decision, after) ← ballot.decide
    pure ([⟨reached, decision⟩], after)

def run (ballot : Ballot P κ) : List (Call P) → Checked (List (Verdict P) × Ballot P κ)
  | [] => .ok ([], ballot)
  | c :: rest => do
    let (verdicts, next) ← ballot.call c
    let (more, last) ← next.run rest
    pure (verdicts ++ more, last)

/-- What every call keeps, of the verdicts so far and the ballot, is kept by a run of them. -/
theorem holds_of_run (holds : List (Verdict P) → Ballot P κ → Prop)
    (hstep : ∀ verdicts ballot c new next, holds verdicts ballot →
      Ballot.call ballot c = .ok (new, next) → holds (verdicts ++ new) next)
    {ballot last : Ballot P κ} {calls : List (Call P)} {more : List (Verdict P)}
    (verdicts : List (Verdict P)) (h : holds verdicts ballot)
    (hrun : ballot.run calls = .ok (more, last)) :
    holds (verdicts ++ more) last := by
  induction calls generalizing ballot verdicts more with
  | nil =>
    cases hrun
    rw [List.append_nil]
    exact h
  | cons c rest ih =>
    obtain ⟨⟨new, next⟩, hcall, hrest⟩ := Checked.bind_eq_ok_iff.1 hrun
    obtain ⟨⟨others, end'⟩, hothers, heq⟩ := Checked.bind_eq_ok_iff.1 hrest
    cases heq
    rw [← List.append_assoc]
    exact ih (verdicts ++ new) (hstep verdicts ballot c new next h hcall) hothers

/-! ## One call -/

theorem feed_grows (ballot : Ballot P κ) (txs : List (Transaction P)) :
    Tally.Grows ballot.tally (ballot.feed txs).tally := by
  induction txs generalizing ballot with
  | nil => exact Tally.Grows.refl _
  | cons tx txs ih =>
    rw [feed, List.foldl_cons]
    cases hprocess : ballot.process tx with
    | error e => exact ih ballot
    | ok after =>
      obtain ⟨_, rfl⟩ := process_eq_ok_iff.1 hprocess
      exact (Tally.Grows.add _ _ _).trans (ih (ballot.accept tx))

omit [Ord κ] [Payload P κ] [DecidableEq κ] [Named κ] in
theorem late_concat (verdicts : List (Verdict P)) (reached : Bool) (decision : Decision P) :
    late (verdicts ++ [⟨reached, decision⟩]) =
      late verdicts ++ if reached then [decision] else [] := by
  cases reached <;> simp [late]

theorem feed_confirmations (ballot : Ballot P κ) (txs : List (Transaction P)) :
    (ballot.feed txs).confirmations = ballot.confirmations := by
  induction txs generalizing ballot with
  | nil => rfl
  | cons tx txs ih =>
    rw [feed, List.foldl_cons]
    cases hprocess : ballot.process tx with
    | error e => exact ih ballot
    | ok after =>
      obtain ⟨_, rfl⟩ := process_eq_ok_iff.1 hprocess
      exact ih (ballot.accept tx)

theorem Took.call {ballot after : Ballot P κ} {poll : Poll κ} {required : UInt64}
    {taken : List (Transaction P)} {c : Call P} {verdicts : List (Verdict P)}
    (h : ballot.Took poll required taken) (hcall : ballot.call c = .ok (verdicts, after)) :
    ∃ more, after.Took poll required (taken ++ more) := by
  cases c with
  | check tx =>
    cases hcall
    exact ⟨[], by rwa [List.append_nil]⟩
  | process tx =>
    cases hcall
    exact h.feed [tx]
  | decide =>
    obtain ⟨reached, _, hrest⟩ := Checked.bind_eq_ok_iff.1 hcall
    obtain ⟨⟨decision, last⟩, hdecide, heq⟩ := Checked.bind_eq_ok_iff.1 hrest
    cases heq
    exact ⟨[], by rw [List.append_nil]; exact (h.decide hdecide).1⟩

theorem Took.run {ballot last : Ballot P κ} {poll : Poll κ} {required : UInt64}
    {taken : List (Transaction P)} {calls : List (Call P)} {verdicts : List (Verdict P)}
    (h : ballot.Took poll required taken) (hrun : ballot.run calls = .ok (verdicts, last)) :
    ∃ more, last.Took poll required (taken ++ more) := by
  refine holds_of_run (fun _ b => ∃ more, b.Took poll required (taken ++ more)) ?_ []
    ⟨[], by rwa [List.append_nil]⟩ hrun
  rintro _ b c new next ⟨more, hbefore⟩ hcall
  obtain ⟨further, hafter⟩ := hbefore.call hcall
  exact ⟨more ++ further, by rwa [← List.append_assoc]⟩

/-- The verdicts of a run up to here, which began with a ballot that had taken nothing. -/
structure Decides (ballot : Ballot P κ) (poll : Poll κ) (required : UInt64) (threshold : Nat)
    (verdicts : List (Verdict P)) : Prop where
  took : ∃ taken, ballot.Took poll required taken
  seen_eq : ballot.confirmations.seen.toNat = (late verdicts).length
  early : ∀ v ∈ verdicts, v.reached = false → v.decision = .pending ∨ v.decision = .noMajority
  unreached : ballot.tally.hasMajority threshold = false → late verdicts = []
  reached : ∀ payload votes, ballot.tally.leader? = some (payload, votes) → threshold ≤ votes →
    late verdicts = heldBack required.toNat payload (late verdicts).length

theorem decides_ofContext {roundId : String} {allowed : κ} {context : RoundContext κ}
    {opened : Ballot P κ} (h : ofContext roundId allowed context = .ok opened) (threshold : Nat) :
    opened.Decides opened.poll context.requiredConfirmations threshold [] where
  took := ⟨[], took_ofContext h⟩
  seen_eq := by
    obtain ⟨poll, _, rfl⟩ := ofContext_eq_ok_iff.1 h
    rfl
  early := by
    intro v hv
    cases hv
  unreached := fun _ => rfl
  reached := fun _ _ _ _ => by simp [late, heldBack]

namespace Decides
variable {ballot : Ballot P κ} {poll : Poll κ} {required : UInt64} {threshold : Nat}
  {verdicts : List (Verdict P)}

/-- A new vote gives the lead to another payload only before the threshold is reached, and then no
question has been asked past it. -/
theorem feed (h : ballot.Decides poll required threshold verdicts)
    (ht : poll.threshold = .ok threshold)
    (hsize : poll.participants.size ≤ poll.params.maxParticipants.toNat)
    (txs : List (Transaction P)) : (ballot.feed txs).Decides poll required threshold verdicts := by
  obtain ⟨taken, htook⟩ := h.took
  obtain ⟨more, hmore⟩ := htook.feed txs
  have hgrows := feed_grows ballot txs
  refine ⟨⟨_, hmore⟩, ?_, h.early, ?_, ?_⟩
  · rw [feed_confirmations]
    exact h.seen_eq
  · intro hnot
    apply h.unreached
    by_contra hmajority
    rw [Bool.not_eq_false] at hmajority
    rw [hgrows.hasMajority hmajority] at hnot
    cases hnot
  · intro payload votes hlead hvotes
    cases hmajority : ballot.tally.hasMajority threshold with
    | false =>
      rw [h.unreached hmajority]
      simp [heldBack]
    | true =>
      obtain ⟨first, count, hfirst, hcount⟩ := Tally.exists_leader? hmajority
      obtain ⟨_, hsame, _⟩ :=
        hgrows.leader? hmore.counts (hmore.voters_size_lt ht hsize) hfirst hcount
      rw [hlead] at hsame
      obtain ⟨rfl, _⟩ := Prod.mk.inj (Option.some.inj hsame)
      exact h.reached payload count hfirst hcount

theorem decide {decision : Decision P} {after : Ballot P κ} {reached : Bool}
    (h : ballot.Decides poll required threshold verdicts) (ht : poll.threshold = .ok threshold)
    (hreached : ballot.isReached = .ok reached) (hdecide : ballot.decide = .ok (decision, after)) :
    after.Decides poll required threshold (verdicts ++ [⟨reached, decision⟩]) := by
  obtain ⟨taken, htook⟩ := h.took
  have ht' : ballot.poll.threshold = .ok threshold := htook.poll_eq ▸ ht
  rw [isReached_eq ht', Except.ok.injEq] at hreached
  cases reached with
  | false =>
    rw [decide_of_not_hasMajority ht' hreached, Except.ok.injEq, Prod.mk.injEq] at hdecide
    obtain ⟨rfl, rfl⟩ := hdecide
    have hlate : ∀ d, late (verdicts ++ [⟨false, d⟩]) = late verdicts := by
      intro d
      rw [late_concat, if_neg Bool.false_ne_true, List.append_nil]
    refine ⟨⟨taken, htook⟩, ?_, ?_, ?_, ?_⟩
    · rw [hlate]
      exact h.seen_eq
    · intro v hv hfalse
      rcases List.mem_append.1 hv with hv | hv
      · exact h.early v hv hfalse
      · rw [List.mem_singleton.1 hv]
        by_cases hpossible :
            ballot.tally.isMajorityPossible ballot.poll.participants.size threshold = true
        · exact .inl (if_pos hpossible)
        · exact .inr (if_neg hpossible)
    · rw [hlate]
      exact h.unreached
    · rw [hlate]
      exact h.reached
  | true =>
    obtain ⟨payload, votes, hlead, hvotes⟩ := Tally.exists_leader? hreached
    rw [decide_of_leader ht' hlead hvotes] at hdecide
    obtain ⟨confirmations, htick, hpair⟩ := Checked.map_eq_ok_iff.1 hdecide
    obtain ⟨rfl, rfl⟩ := Prod.mk.inj hpair
    obtain ⟨hrequired, hseen⟩ := Confirmations.tick_eq_ok_iff.1 htick
    have hlate : ∀ d, late (verdicts ++ [⟨true, d⟩]) = late verdicts ++ [d] := by
      intro d
      rw [late_concat, if_pos rfl]
    refine ⟨⟨taken, htook.poll_eq, hrequired.trans htook.required_eq, htook.took,
      htook.collection_eq, htook.tally_eq⟩, ?_, ?_, ?_, ?_⟩
    · rw [hlate, List.length_append, List.length_singleton, ← h.seen_eq]
      exact hseen
    · intro v hv hfalse
      rcases List.mem_append.1 hv with hv | hv
      · exact h.early v hv hfalse
      · rw [List.mem_singleton.1 hv] at hfalse
        cases hfalse
    · intro hnot
      rw [hreached] at hnot
      cases hnot
    · intro q count hq _
      rw [hlead] at hq
      obtain ⟨rfl, _⟩ := Prod.mk.inj (Option.some.inj hq)
      rw [hlate, List.length_append, List.length_singleton, heldBack_succ,
        ← h.reached payload votes hlead hvotes, Confirmations.isComplete, hrequired,
        htook.required_eq, hseen, h.seen_eq]
      simp only [decide_eq_true_eq]

theorem call {c : Call P} {new : List (Verdict P)} {after : Ballot P κ}
    (h : ballot.Decides poll required threshold verdicts) (ht : poll.threshold = .ok threshold)
    (hsize : poll.participants.size ≤ poll.params.maxParticipants.toNat)
    (hcall : ballot.call c = .ok (new, after)) :
    after.Decides poll required threshold (verdicts ++ new) := by
  cases c with
  | check tx =>
    cases hcall
    rw [List.append_nil]
    exact h
  | process tx =>
    cases hcall
    rw [List.append_nil]
    exact h.feed ht hsize [tx]
  | decide =>
    obtain ⟨reached, hreached, hrest⟩ := Checked.bind_eq_ok_iff.1 hcall
    obtain ⟨⟨decision, last⟩, hdecide, heq⟩ := Checked.bind_eq_ok_iff.1 hrest
    cases heq
    exact h.decide ht hreached hdecide

theorem run {calls : List (Call P)} {more : List (Verdict P)} {last : Ballot P κ}
    (h : ballot.Decides poll required threshold verdicts) (ht : poll.threshold = .ok threshold)
    (hsize : poll.participants.size ≤ poll.params.maxParticipants.toNat)
    (hrun : ballot.run calls = .ok (more, last)) :
    last.Decides poll required threshold (verdicts ++ more) :=
  holds_of_run (fun v b => b.Decides poll required threshold v)
    (fun _ _ _ _ _ h hcall => h.call ht hsize hcall) verdicts h hrun

end Decides

/-! ## Any run -/

theorem call_grows {ballot after : Ballot P κ} {c : Call P} {new : List (Verdict P)}
    (hcall : ballot.call c = .ok (new, after)) : Tally.Grows ballot.tally after.tally := by
  cases c with
  | check tx =>
    cases hcall
    exact Tally.Grows.refl _
  | process tx =>
    cases hcall
    exact feed_grows ballot [tx]
  | decide =>
    obtain ⟨reached, _, hrest⟩ := Checked.bind_eq_ok_iff.1 hcall
    obtain ⟨⟨decision, last⟩, hdecide, heq⟩ := Checked.bind_eq_ok_iff.1 hrest
    cases heq
    obtain ⟨_, _, _, _, rfl, _⟩ := decide_eq_ok hdecide
    exact Tally.Grows.refl _

theorem run_grows {ballot last : Ballot P κ} {calls : List (Call P)} {verdicts : List (Verdict P)}
    (hrun : ballot.run calls = .ok (verdicts, last)) : Tally.Grows ballot.tally last.tally :=
  holds_of_run (fun _ b => Tally.Grows ballot.tally b.tally)
    (fun _ _ _ _ _ h hcall => h.trans (call_grows hcall)) [] (Tally.Grows.refl _) hrun

/-- The one call that gives no answer is the question that no longer fits the counter. -/
theorem Decides.exists_call {ballot : Ballot P κ} {poll : Poll κ} {required : UInt64}
    {threshold : Nat} {verdicts : List (Verdict P)}
    (h : ballot.Decides poll required threshold verdicts) (ht : poll.threshold = .ok threshold)
    (c : Call P) :
    (∃ answer, ballot.call c = .ok answer) ∨
      c = .decide ∧ ballot.isReached = .ok true ∧ (late verdicts).length + 1 = UInt64.size ∧
        ballot.call c = .error .add := by
  obtain ⟨taken, htook⟩ := h.took
  have ht' : ballot.poll.threshold = .ok threshold := htook.poll_eq ▸ ht
  cases c with
  | check tx => exact .inl ⟨_, rfl⟩
  | process tx => exact .inl ⟨_, rfl⟩
  | decide =>
    have hreached := isReached_eq ht'
    cases hmajority : ballot.tally.hasMajority threshold with
    | false =>
      rw [Ballot.call, hreached, decide_of_not_hasMajority ht' hmajority]
      exact .inl ⟨_, rfl⟩
    | true =>
      obtain ⟨payload, votes, hlead, hvotes⟩ := Tally.exists_leader? hmajority
      have hdecide := decide_of_leader ht' hlead hvotes
      rw [hmajority] at hreached
      have hlt := Word.toNat_lt_size ballot.confirmations.seen
      by_cases hfits : ballot.confirmations.seen.toNat + 1 < UInt64.size
      · obtain ⟨confirmations, htick⟩ := Confirmations.exists_tick hfits
        rw [Ballot.call, hreached, hdecide, htick]
        exact .inl ⟨_, rfl⟩
      · have hfull : ballot.confirmations.seen.toNat + 1 = UInt64.size := by omega
        refine .inr ⟨rfl, hreached, ?_, ?_⟩
        · rw [← h.seen_eq]
          exact hfull
        · rw [Ballot.call, hreached, hdecide, Confirmations.tick_eq_error hfull]
          rfl

theorem decisions_are_final {roundId : String} {allowed : κ} {context : RoundContext κ}
    {opened ballot : Ballot P κ} {calls : List (Call P)} {verdicts : List (Verdict P)}
    (hopen : ofContext roundId allowed context = .ok opened)
    (hsize : opened.poll.participants.size ≤ context.params.maxParticipants.toNat)
    (hmax : context.params.maxParticipants.toNat < 2 ^ 63)
    (hrun : opened.run calls = .ok (verdicts, ballot)) :
    ∃ threshold, context.params.threshold = .ok threshold ∧
      (ballot.isReached = .ok false ∧ ballot.mostVoted = .ok (.error .notEnoughVotes) ∧
          late verdicts = [] ∨
        ∃ payload, ballot.isReached = .ok true ∧ ballot.mostVoted = .ok (.ok payload) ∧
          (∃ senders : Finset String, threshold ≤ senders.card ∧ ∀ s ∈ senders, ∃ q,
            ballot.collection.get? s = some q ∧ (q = payload ∨ Payload.same payload q = true)) ∧
          late verdicts = heldBack context.requiredConfirmations.toNat payload
            (late verdicts).length ∧
          ∀ later more last, ballot.run later = .ok (more, last) →
            last.isReached = .ok true ∧ last.mostVoted = .ok (.ok payload)) ∧
      (∀ v ∈ verdicts, v.reached = false → v.decision = .pending ∨ v.decision = .noMajority) ∧
      ∀ c, (∃ answer, ballot.call c = .ok answer) ∨
        c = .decide ∧ ballot.isReached = .ok true ∧ (late verdicts).length + 1 = 2 ^ 64 ∧
          ballot.call c = .error .add := by
  obtain ⟨threshold, ht⟩ := ConsensusParams.exists_threshold hmax
  have hparams := params_of_ofContext hopen
  have ht' : opened.poll.threshold = .ok threshold := by
    rw [Poll.threshold, hparams]
    exact ht
  rw [← hparams] at hsize
  have hdecides := (decides_ofContext hopen threshold).run ht' hsize hrun
  rw [List.nil_append] at hdecides
  obtain ⟨taken, htook⟩ := hdecides.took
  have hthreshold : ballot.poll.threshold = .ok threshold := htook.poll_eq ▸ ht'
  refine ⟨threshold, ht, ?_, hdecides.early, fun c => hdecides.exists_call ht' c⟩
  cases hmajority : ballot.tally.hasMajority threshold with
  | false =>
    have hreached := isReached_eq hthreshold
    rw [hmajority] at hreached
    exact .inl ⟨hreached, mostVoted_of_not_isReached hthreshold hreached,
      hdecides.unreached hmajority⟩
  | true =>
    have hreached := isReached_eq hthreshold
    rw [hmajority] at hreached
    obtain ⟨payload, votes, hlead, hvotes, hmost⟩ := exists_leader_of_isReached hthreshold hreached
    obtain ⟨senders, hcard, _, hback⟩ := htook.backers hlead
    refine .inr ⟨payload, hreached, hmost, ⟨senders, hcard ▸ hvotes, hback⟩,
      hdecides.reached payload votes hlead hvotes, ?_⟩
    intro later more last hlater
    obtain ⟨taken', htook'⟩ := (hdecides.run ht' hsize hlater).took
    have hlast : last.poll.threshold = .ok threshold := htook'.poll_eq ▸ ht'
    obtain ⟨count, hlead', hcount⟩ := (run_grows hlater).leader? htook'.counts
      (htook'.voters_size_lt ht' hsize) hlead hvotes
    refine ⟨?_, by rw [mostVoted_of_leader hlast hlead', if_pos hcount]⟩
    rw [isReached_eq hlast, Tally.hasMajority_of_leader? hlead' hcount]

/-- One block of confirmation: a question too early, three votes, and a late vote in between. -/
def someCalls : List (Call PriceOracle.Payload) :=
  [.decide, .process ⟨"a", zeroEstimate⟩, .check ⟨"b", zeroEstimate⟩,
    .process ⟨"b", negativeZeroEstimate⟩, .process ⟨"b", oneEstimate⟩,
    .process ⟨"c", zeroEstimate⟩, .decide, .process ⟨"d", oneEstimate⟩, .decide, .decide]

theorem decisions_are_final_for_zero :
    ∃ verdicts ballot, openedByFour.run someCalls = .ok (verdicts, ballot) ∧
      ∃ payload, ballot.isReached = .ok true ∧ ballot.mostVoted = .ok (.ok payload) ∧
        late verdicts = [.pending, .reached payload, .reached payload] ∧
        ∀ later more last, ballot.run later = .ok (more, last) →
          last.isReached = .ok true ∧ last.mostVoted = .ok (.ok payload) := by
  have hcount : (openedByFour.run someCalls).map (fun out => (late out.1).length) = .ok 3 := by
    decide +kernel
  obtain ⟨⟨verdicts, ballot⟩, hrun, hlength⟩ := Checked.map_eq_ok_iff.1 hcount
  refine ⟨verdicts, ballot, hrun, ?_⟩
  have hopen : ofContext "estimate_consensus" .estimate fourParticipants = .ok openedByFour := rfl
  obtain ⟨_, _, hcases, _⟩ := decisions_are_final hopen (by decide) (by decide) hrun
  rcases hcases with ⟨_, _, hnone⟩ | ⟨payload, hreached, hmost, _, hlate, hfinal⟩
  · change (late verdicts).length = 3 at hlength
    rw [hnone] at hlength
    cases hlength
  · change (late verdicts).length = 3 at hlength
    rw [hlength] at hlate
    exact ⟨payload, hreached, hmost, hlate, hfinal⟩

end QuorumRounds.Ballot
