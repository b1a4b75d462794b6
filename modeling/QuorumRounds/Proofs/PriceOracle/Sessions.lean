import QuorumRounds.Proofs.PriceOracle.Rounds

/-! # What calls make of a round

`Round.Reached first round`: the round is what calls have left of the first one, which processed
transactions and asked for decisions, in any order and whatever the answers were.

A round of any kind can be built where the participants are readable, whichever keys a reset carries
over (`exists_build`), and what calls leave of it has taken some transactions in the meantime and is
of the same kind and the same poll (`Reached.heard`). -/

namespace QuorumRounds.PriceOracle.Round
set_option autoImplicit false

inductive Reached (first : Round) : Round → Prop where
  | opened : Reached first first
  | processed {round after : Round} {tx : Transaction Payload} {answer : Except InternalError Unit}
    (h : Reached first round) (hprocess : round.process tx = .ok (answer, after)) :
    Reached first after
  | asked {round after : Round} {outcome : Option (Store × Event)} (h : Reached first round)
    (hend : round.endBlock = .ok (outcome, after)) : Reached first after

theorem Reached.processAll {first round after : Round} {txs : List (Transaction Payload)}
    {answers : List (Except InternalError Unit)} (h : Reached first round)
    (hall : round.processAll txs = .ok (answers, after)) : Reached first after := by
  induction txs generalizing round answers with
  | nil =>
    cases hall
    exact h
  | cons tx rest ih =>
    rw [Round.processAll] at hall
    obtain ⟨⟨answer, next⟩, hprocess, hrest⟩ := Checked.bind_eq_ok_iff.1 hall
    obtain ⟨⟨others, last⟩, hothers, heq⟩ := Checked.bind_eq_ok_iff.1 hrest
    cases heq
    exact ih (.processed h hprocess) hothers

/-- What the round has taken, as in `Took`, for a reset that carries over any keys. -/
inductive Heard (keys : List String) (depth : UInt64) (poll : Poll Kind) (required : UInt64)
    (taken : List (Transaction Payload)) : RoundKind → Round → Prop where
  | other {kind : RoundKind} {round : Round} (hkind : kind ≠ .reset)
    (h : round.Took depth poll required taken kind) :
    Heard keys depth poll required taken kind round
  | reset {ballot : Ballot Payload Kind} (h : ballot.Took poll required taken) :
    Heard keys depth poll required taken .reset (.reset ballot keys depth)

namespace Heard
variable {keys : List String} {depth required : UInt64} {poll : Poll Kind}
  {taken : List (Transaction Payload)} {kind : RoundKind} {round after : Round}

theorem poll_eq (h : round.Heard keys depth poll required taken kind) : round.poll = poll := by
  cases h with
  | other hkind h => exact h.poll_eq
  | reset h => exact h.poll_eq

theorem accept {tx : Transaction Payload} (h : round.Heard keys depth poll required taken kind)
    (hcheck : round.check tx = .ok (.ok ())) :
    (round.accept tx).Heard keys depth poll required (taken ++ [tx]) kind := by
  cases h with
  | other hkind h => exact .other hkind (h.accept hcheck)
  | reset h => exact .reset (h.accept (check_eq_ok_iff.1 hcheck).1)

theorem process {tx : Transaction Payload} {answer : Except InternalError Unit}
    (h : round.Heard keys depth poll required taken kind)
    (hprocess : round.process tx = .ok (answer, after)) :
    ∃ more, after.Heard keys depth poll required (taken ++ more) kind := by
  cases answer with
  | ok _ =>
    obtain ⟨hcheck, rfl⟩ := process_eq_ok_iff.1 hprocess
    exact ⟨[tx], h.accept hcheck⟩
  | error e =>
    rw [(process_eq_error hprocess).1]
    exact ⟨[], by rwa [List.append_nil]⟩

theorem endBlock (h : round.Heard keys depth poll required taken kind)
    (hallowed : poll.allowed = kind.allowed) {outcome : Option (Store × Event)}
    (hend : round.endBlock = .ok (outcome, after)) :
    after.Heard keys depth poll required taken kind := by
  cases h with
  | other hkind h => exact .other hkind (h.endBlock hallowed hend).1
  | reset h =>
    obtain ⟨decision, asked, hdecide, _, rfl⟩ := handedOn_eq_ok (.reset · keys depth) hend
    exact .reset (h.decide hdecide).1

end Heard

variable {keys : List String} {depth : UInt64} {kind : RoundKind} {context : RoundContext Kind}
  {participants : SortedSet String}

theorem exists_build (hread : context.store.participants = .ok participants) (keys : List String)
    (depth : UInt64) (kind : RoundKind) :
    ∃ first, buildRound keys depth kind context = .ok first ∧
      first.Heard keys depth (pollOf kind context participants) context.requiredConfirmations []
        kind := by
  have hbuild := buildRound_eq hread depth kind
  have htook := took_opened depth context.requiredConfirmations (pollOf kind context participants)
    kind
  cases kind with
  | registration => exact ⟨_, hbuild, .other (by decide) htook⟩
  | collectObservation => exact ⟨_, hbuild, .other (by decide) htook⟩
  | estimateConsensus => exact ⟨_, hbuild, .other (by decide) htook⟩
  | reset =>
    have hpoll : Poll.ofContext (name RoundKind.reset) .reset context =
        .ok (pollOf .reset context participants) :=
      Poll.ofContext_eq_ok_iff.2 ⟨participants, hread, rfl⟩
    have hballot := (Ballot.ofContext_eq_ok_iff (P := Payload)).2 ⟨_, hpoll, rfl⟩
    exact ⟨_, congrArg (Except.map fun ballot => Round.reset ballot keys depth) hballot,
      .reset (Ballot.took_ofContext hballot)⟩

theorem Reached.heard {first round : Round} {required : UInt64} {poll : Poll Kind}
    (h : Reached first round) (hallowed : poll.allowed = kind.allowed)
    (hfirst : first.Heard keys depth poll required [] kind) :
    ∃ taken, round.Heard keys depth poll required taken kind := by
  induction h with
  | opened => exact ⟨[], hfirst⟩
  | processed _ hprocess ih =>
    obtain ⟨taken, htaken⟩ := ih
    obtain ⟨more, hmore⟩ := htaken.process hprocess
    exact ⟨taken ++ more, hmore⟩
  | asked _ hend ih =>
    obtain ⟨taken, htaken⟩ := ih
    exact ⟨taken, htaken.endBlock hallowed hend⟩

end QuorumRounds.PriceOracle.Round
