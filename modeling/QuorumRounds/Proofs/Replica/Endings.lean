import QuorumRounds.Proofs.Replica.Invariant

/-! # The rounds that have ended

`Recounts start replica endings` says that the steps of blocks have led from `start` to the replica,
and which rounds have ended on the way: with which event, and with which store the machine went on. A
timeout ends a round when a block begins, a decision when it ends.

The steps are those that `processBlock` is made of, so that the states in the middle of a block are
recounted as well as those between blocks (`Recounts.processBlock`). -/

namespace QuorumRounds
set_option autoImplicit false

structure Ending (ρ ε : Type) where
  kind : ρ
  event : ε
  /-- What the round has handed on. -/
  result : Store

/-- The ending that an answer tells of, if it names an event. -/
def Ending.ofAnswer {ρ ε : Type} (kind : Option ρ) (answer : Except Error (Option ε))
    (result : Store) : List (Ending ρ ε) :=
  match kind, answer with
  | some kind, .ok (some event) => [⟨kind, event, result⟩]
  | _, _ => []

theorem Ending.ofAnswer_none {ρ ε : Type} (kind : Option ρ) (result : Store) :
    ofAnswer kind (.ok (none : Option ε)) result = [] := by
  cases kind <;> rfl

theorem Ending.ofAnswer_error {ρ ε : Type} (kind : Option ρ) (e : Error) (result : Store) :
    ofAnswer kind (.error e : Except Error (Option ε)) result = [] := by
  cases kind <;> rfl

namespace Replica

variable {ρ ε κ σ P : Type} [Ord ρ] [Ord ε] [Ord κ] [RoundBehavior σ P ε] [Wire P]

inductive Recounts (start : Replica ρ ε κ σ) : Replica ρ ε κ σ → List (Ending ρ ε) → Prop where
  | start : Recounts start start []
  | refused {replica after : Replica ρ ε κ σ} {endings : List (Ending ρ ε)} {header : BlockHeader}
    {e : Error} (h : Recounts start replica endings)
    (hbegin : replica.beginBlock header = .ok (.error e, after)) : Recounts start after endings
  | begun {replica after : Replica ρ ε κ σ} {endings : List (Ending ρ ε)} {header : BlockHeader}
    {timed : Machine ρ ε κ σ} {fired : Except Error (Option ε)} (h : Recounts start replica endings)
    (htime : replica.machine.updateTime header.timestamp = .ok (fired, timed))
    (hbegin : replica.beginBlock header = .ok (.ok (), after)) :
    Recounts start after (endings ++ Ending.ofAnswer replica.machine.currentKind fired timed.store)
  | delivered {replica after : Replica ρ ε κ σ} {endings : List (Ending ρ ε)} {bytes : List UInt8}
    {answer : Except Error Unit} (h : Recounts start replica endings)
    (hdeliver : replica.deliverTx bytes = .ok (answer, after)) : Recounts start after endings
  | ended {replica after : Replica ρ ε κ σ} {endings : List (Ending ρ ε)}
    {answer : Except Error (Option ε)} (h : Recounts start replica endings)
    (hend : replica.endBlock = .ok (answer, after)) :
    Recounts start after
      (endings ++ Ending.ofAnswer replica.machine.currentKind answer after.machine.store)
  | committed {replica after : Replica ρ ε κ σ} {endings : List (Ending ρ ε)}
    {answer : Except Error Unit} (h : Recounts start replica endings)
    (hcommit : replica.commit = .ok (answer, after)) : Recounts start after endings
  | aborted {replica : Replica ρ ε κ σ} {endings : List (Ending ρ ε)}
    (h : Recounts start replica endings) : Recounts start replica.abort endings

namespace Recounts
variable {start replica after : Replica ρ ε κ σ} {endings : List (Ending ρ ε)}

theorem deliverAll {index : Nat} {transactions : List (List UInt8)}
    {answer : Except Error (List (Nat × Error))} (h : Recounts start replica endings)
    (hdeliver : replica.deliverAll index transactions = .ok (answer, after)) :
    Recounts start after endings := by
  induction transactions generalizing replica index answer after with
  | nil =>
    cases hdeliver
    exact h
  | cons bytes rest ih =>
    rw [Replica.deliverAll] at hdeliver
    obtain ⟨⟨delivered, next⟩, hfirst, hrest⟩ := Checked.bind_eq_ok_iff.1 hdeliver
    have hnext := h.delivered hfirst
    cases delivered with
    | ok _ => exact ih hnext hrest
    | error e =>
      by_cases hrejection : isRejection e = true
      · simp only [hrejection, if_true] at hrest
        obtain ⟨⟨others, last⟩, hothers, heq⟩ := Checked.bind_eq_ok_iff.1 hrest
        cases heq
        exact ih hnext hothers
      · simp only [hrejection, Bool.false_eq_true, if_false] at hrest
        cases hrest
        exact hnext

theorem runBlock {transactions : List (List UInt8)} {answer : Except Error (BlockOutcome ε)}
    (h : Recounts start replica endings)
    (hrun : replica.runBlock transactions = .ok (answer, after)) :
    ∃ endings, Recounts start after endings := by
  rw [Replica.runBlock] at hrun
  obtain ⟨⟨delivered, last⟩, hdeliver, hrest⟩ := Checked.bind_eq_ok_iff.1 hrun
  have hlast := h.deliverAll hdeliver
  cases delivered with
  | error e =>
    cases hrest
    exact ⟨_, hlast⟩
  | ok rejected =>
    obtain ⟨⟨decided, closed⟩, hend, hrest⟩ := Checked.bind_eq_ok_iff.1 hrest
    have hclosed := hlast.ended hend
    cases decided with
    | error e =>
      cases hrest
      exact ⟨_, hclosed⟩
    | ok event =>
      obtain ⟨⟨answer, committed⟩, hcommit, heq⟩ := Checked.bind_eq_ok_iff.1 hrest
      cases heq
      exact ⟨_, hclosed.committed hcommit⟩

theorem processBlock {block : Block} {answer : Except Error (BlockOutcome ε)}
    (h : Recounts start replica endings)
    (hblock : replica.processBlock block = .ok (answer, after)) :
    ∃ endings, Recounts start after endings := by
  rcases processBlock_cases hblock with ⟨e, -, hbegin⟩ | ⟨begun, last, hbegin, hrun, hcase⟩
  · exact ⟨_, h.refused hbegin⟩
  · obtain ⟨_, _, fired, timed, htime, _⟩ := beginBlock_eq_ok hbegin
    obtain ⟨endings, hlast⟩ := (h.begun htime hbegin).runBlock hrun
    rcases hcase with ⟨-, rfl⟩ | ⟨-, rfl⟩
    · exact ⟨endings, hlast.aborted⟩
    · exact ⟨endings, hlast⟩

/-- Every run of blocks is recounted. -/
theorem processAll {blocks : List Block} {outcomes : List (Except Error (BlockOutcome ε))}
    (h : Recounts start replica endings)
    (hall : replica.processAll blocks = .ok (outcomes, after)) :
    ∃ endings, Recounts start after endings := by
  induction blocks generalizing replica endings outcomes with
  | nil =>
    cases hall
    exact ⟨endings, h⟩
  | cons block rest ih =>
    obtain ⟨answer, others, next, rfl, hblock, hothers⟩ := processAll_cons_eq_ok hall
    obtain ⟨endings, hnext⟩ := h.processBlock hblock
    exact ih hnext hothers

/-! ## What holds on the way -/

variable {γ : Type} {holds : γ → List (Transaction P) → Machine ρ ε κ σ → Prop}

/-- What the machine tracks, it tracks in every state that is recounted. -/
theorem held (htracks : Machine.Tracks holds) (hstart : Held holds start)
    (h : Recounts start replica endings) : Held holds replica := by
  induction h with
  | start => exact hstart
  | refused _ hbegin ih => exact ih.beginBlock htracks hbegin
  | begun _ _ hbegin ih => exact ih.beginBlock htracks hbegin
  | delivered _ hdeliver ih => exact ih.deliverTx htracks hdeliver
  | ended _ hend ih => exact ih.endBlock htracks hend
  | committed _ hcommit ih => exact ih.commit hcommit
  | aborted _ ih => exact ih

/-- Every ending is one of a timeout or of a decision, in a state that is recounted. -/
theorem forall_mem {Q : Ending ρ ε → Prop} (htracks : Machine.Tracks holds)
    (hstart : Held holds start)
    (htimeout : ∀ {g : γ} {taken machine now answer after}, holds g taken machine →
      machine.updateTime now = .ok (answer, after) →
      ∀ e ∈ Ending.ofAnswer machine.currentKind answer after.store, Q e)
    (hdecision : ∀ {g : γ} {taken machine answer after}, holds g taken machine →
      machine.endBlock = .ok (answer, after) →
      ∀ e ∈ Ending.ofAnswer machine.currentKind answer after.store, Q e)
    (h : Recounts start replica endings) : ∀ e ∈ endings, Q e := by
  have hboth : ∀ {old new : List (Ending ρ ε)}, (∀ e ∈ old, Q e) → (∀ e ∈ new, Q e) →
      ∀ e ∈ old ++ new, Q e := by
    intro old new hold hnew e he
    exact (List.mem_append.1 he).elim (hold e) (hnew e)
  induction h with
  | start => nofun
  | refused _ _ ih => exact ih
  | begun hreplica htime _ ih =>
    obtain ⟨g, taken, hholds⟩ := hreplica.held htracks hstart
    exact hboth ih (htimeout hholds htime)
  | delivered _ _ ih => exact ih
  | ended hreplica hend ih =>
    obtain ⟨g, taken, hholds⟩ := hreplica.held htracks hstart
    rcases endBlock_cases hend with ⟨_, ⟨e, rfl⟩, _⟩ | ⟨_, machine, _, _, hended, _, rfl⟩
    · rw [Ending.ofAnswer_error, List.append_nil]
      exact ih
    · exact hboth ih (hdecision hholds hended)
  | committed _ _ ih => exact ih
  | aborted _ ih => exact ih

end Recounts

end Replica

end QuorumRounds
