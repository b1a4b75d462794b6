import QuorumRounds.Proofs.Checked
import QuorumRounds.Replica.Calls

/-! # Runs of a replica

A list of calls or of blocks is opened at its first one, or continued behind its last one. -/

namespace QuorumRounds.Replica
set_option autoImplicit false

variable {ρ ε κ σ P : Type} [Ord ρ] [Ord ε] [Ord κ] [RoundBehavior σ P ε] [Wire P]
  {start base after : Replica ρ ε κ σ} {block : Block}

theorem processAll_cons_eq_ok {rest : List Block}
    {outcomes : List (Except Error (BlockOutcome ε))}
    (h : start.processAll (block :: rest) = .ok (outcomes, after)) :
    ∃ outcome others next, outcomes = outcome :: others ∧
      start.processBlock block = .ok (outcome, next) ∧ next.processAll rest = .ok (others, after) := by
  rw [processAll] at h
  obtain ⟨⟨outcome, next⟩, hblock, hrest⟩ := Checked.bind_eq_ok_iff.1 h
  obtain ⟨⟨others, last⟩, hothers, heq⟩ := Checked.bind_eq_ok_iff.1 hrest
  cases heq
  exact ⟨outcome, others, next, rfl, hblock, hothers⟩

theorem processAll_concat {blocks : List Block} {outcomes : List (Except Error (BlockOutcome ε))}
    {outcome : Except Error (BlockOutcome ε)}
    (hall : start.processAll blocks = .ok (outcomes, base))
    (hlast : base.processBlock block = .ok (outcome, after)) :
    start.processAll (blocks ++ [block]) = .ok (outcomes ++ [outcome], after) := by
  induction blocks generalizing start outcomes with
  | nil =>
    cases hall
    simp only [List.nil_append, processAll, hlast, Checked.ok_bind, Checked.pure_eq_ok]
  | cons first rest ih =>
    obtain ⟨answer, others, next, rfl, hfirst, hothers⟩ := processAll_cons_eq_ok hall
    rw [List.cons_append, processAll, hfirst, Checked.ok_bind]
    simp only [ih hothers, Checked.ok_bind, Checked.pure_eq_ok, List.cons_append]

theorem length_of_processAll {blocks : List Block}
    {outcomes : List (Except Error (BlockOutcome ε))}
    (h : start.processAll blocks = .ok (outcomes, after)) : outcomes.length = blocks.length := by
  induction blocks generalizing start outcomes with
  | nil =>
    cases h
    rfl
  | cons first rest ih =>
    obtain ⟨answer, others, next, rfl, _, hothers⟩ := processAll_cons_eq_ok h
    rw [List.length_cons, List.length_cons, ih hothers]

end QuorumRounds.Replica
