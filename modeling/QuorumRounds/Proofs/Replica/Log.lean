import QuorumRounds.Proofs.Replica.Runs
import QuorumRounds.Proofs.Replica.Steps

/-! # What the log says about the current round

`Follows start replica since` says that processing blocks, of which some may have been refused, has
led from `start` to the replica, and that its log held `since` blocks when it entered its current
round. A timeout ends a round before the transactions of its block are delivered, so they belong to
the round that follows; a decision ends a round after them.

The transactions that the current round has taken are those in the log from there on
(`Follows.tracked`), also while the next block is being processed (`Tracked.stages`). -/

namespace QuorumRounds.Replica
set_option autoImplicit false

variable {ρ ε κ σ P γ : Type} [Ord ρ] [Ord ε] [Ord κ] [RoundBehavior σ P ε] [Wire P]

/-- The transactions that the blocks hold, in their order. -/
def transactionsIn (P : Type) [Wire P] (blocks : List Block) : List (Transaction P) :=
  (blocks.flatMap (·.transactions)).filterMap (decoded? P)

/-- The transactions in the log, without its first blocks. -/
def committedSince (P : Type) [Wire P] (blocks : List Block) (since : Nat) :
    List (Transaction P) := transactionsIn P (blocks.drop since)

/-- The length of the log when the current round was entered: an event enters another one. -/
def enteredAt (event : Option ε) (length since : Nat) : Nat :=
  if event.isSome then length else since

inductive Follows (start : Replica ρ ε κ σ) : Replica ρ ε κ σ → Nat → Prop where
  | start : Follows start start start.blocks.length
  | refused {replica after : Replica ρ ε κ σ} {since : Nat} {block : Block} {e : Error}
    (h : Follows start replica since) (hblock : replica.processBlock block = .ok (.error e, after)) :
    Follows start after since
  | processed {replica after : Replica ρ ε κ σ} {since : Nat} {block : Block} {fired : Option ε}
    {timed : Machine ρ ε κ σ} {outcome : BlockOutcome ε} (h : Follows start replica since)
    (htime : replica.machine.updateTime block.header.timestamp = .ok (.ok fired, timed))
    (hblock : replica.processBlock block = .ok (.ok outcome, after)) :
    Follows start after (enteredAt outcome.event after.blocks.length
      (enteredAt fired replica.blocks.length since))

/-- Every run of blocks is followed. -/
theorem Follows.processAll {start base replica : Replica ρ ε κ σ} {since : Nat}
    {blocks : List Block} {outcomes : List (Except Error (BlockOutcome ε))}
    (h : Follows start base since) (hall : base.processAll blocks = .ok (outcomes, replica)) :
    ∃ since, Follows start replica since := by
  induction blocks generalizing base since outcomes with
  | nil =>
    cases hall
    exact ⟨since, h⟩
  | cons block rest ih =>
    obtain ⟨⟨answer, next⟩, hblock, hrest⟩ := Checked.bind_eq_ok_iff.1 hall
    obtain ⟨⟨others, last⟩, hothers, heq⟩ := Checked.bind_eq_ok_iff.1 hrest
    cases heq
    cases answer with
    | error e => exact ih (.refused h hblock) hothers
    | ok outcome =>
      obtain ⟨⟨begin, begun⟩, hbegin, hrun⟩ := Checked.bind_eq_ok_iff.1 hblock
      cases begin with
      | error e => cases hrun
      | ok _ =>
        obtain ⟨_, _, fired, timed, htime, _⟩ := beginBlock_eq_ok hbegin
        exact ih (.processed h htime hblock) hothers

/-! ## The log -/

omit [RoundBehavior σ P ε] in
theorem transactionsIn_append (blocks more : List Block) :
    transactionsIn P (blocks ++ more) = transactionsIn P blocks ++ transactionsIn P more := by
  rw [transactionsIn, List.flatMap_append, List.filterMap_append]
  rfl

theorem committedSince_append {blocks : List Block} {since : Nat} (h : since ≤ blocks.length)
    (more : List Block) :
    committedSince P (blocks ++ more) since =
      committedSince P blocks since ++ transactionsIn P more := by
  rw [committedSince, List.drop_append_of_le_length h, transactionsIn_append]
  rfl

omit [Ord ε] in
theorem committedSince_enteredAt (event : Option ε) (blocks : List Block) (since : Nat) :
    committedSince P blocks (enteredAt event blocks.length since) =
      Machine.remaining event (committedSince P blocks since) := by
  cases event with
  | none => rfl
  | some event =>
    have hnone : blocks.drop blocks.length = [] := List.drop_length
    simp only [enteredAt, Machine.remaining, Option.isSome_some, if_true, committedSince, hnone]
    rfl

omit [Ord ε] in
theorem enteredAt_le {event : Option ε} {length since bound : Nat} (hlength : length ≤ bound)
    (hsince : since ≤ bound) : enteredAt event length since ≤ bound := by
  cases event with
  | none => exact hsince
  | some event => exact hlength

/-! ## One block -/

section Block
variable {holds : γ → List (Transaction P) → Machine ρ ε κ σ → Prop} {g : γ}
  {taken : List (Transaction P)} {replica after begun : Replica ρ ε κ σ} {block : Block}

/-- Every transaction is either taken and recorded, or refused and left out. -/
theorem deliverAll_eq_ok {transactions : List (List UInt8)} {index : Nat}
    {answer : Except Error (List (Nat × Error))} (htracks : Machine.Tracks holds)
    (hphase : replica.phase = .delivering block) (hholds : holds g taken replica.machine)
    (h : replica.deliverAll index transactions = .ok (answer, after)) :
    ∃ rejected accepted machine, answer = .ok rejected ∧
      holds g (taken ++ accepted.filterMap (decoded? P)) machine ∧
      after = { replica with
        machine := machine
        phase := .delivering ⟨block.header, block.transactions ++ accepted⟩ } := by
  induction transactions generalizing replica after taken block index answer with
  | nil =>
    cases h
    refine ⟨[], [], replica.machine, rfl, ?_, ?_⟩
    · rw [List.filterMap_nil, List.append_nil]
      exact hholds
    · rw [List.append_nil, ← hphase]
  | cons bytes rest ih =>
    rw [deliverAll] at h
    obtain ⟨⟨delivered, next⟩, hdeliver, hrest⟩ := Checked.bind_eq_ok_iff.1 h
    cases delivered with
    | ok _ =>
      obtain ⟨block', tx, machine, hphase', hdecoded, hcheck, hprocess, rfl⟩ :=
        deliverTx_eq_ok hdeliver
      rw [hphase] at hphase'
      cases hphase'
      obtain ⟨_, hnext⟩ := htracks.processTransaction hholds hcheck hprocess
      obtain ⟨rejected, accepted, last, rfl, hlast, rfl⟩ := ih rfl hnext hrest
      refine ⟨rejected, bytes :: accepted, last, rfl, ?_, ?_⟩
      · rw [List.filterMap_cons_some hdecoded]
        simpa using hlast
      · simp
    | error e =>
      obtain ⟨rfl, hrejection⟩ := deliverTx_eq_error htracks hholds hdeliver
      simp only [hrejection block hphase, if_true] at hrest
      obtain ⟨⟨others, last⟩, hothers, heq⟩ := Checked.bind_eq_ok_iff.1 hrest
      obtain ⟨rejected, accepted, machine, rfl, hmachine, rfl⟩ := ih hphase hholds hothers
      cases heq
      exact ⟨(index, e) :: rejected, accepted, machine, rfl, hmachine, rfl⟩

theorem runBlock_eq_ok {transactions : List (List UInt8)}
    {answer : Except Error (BlockOutcome ε)} (htracks : Machine.Tracks holds)
    (hphase : begun.phase = .delivering block) (hholds : holds g taken begun.machine)
    (h : begun.runBlock transactions = .ok (answer, after)) :
    ∃ outcome accepted delivered ended height, answer = .ok outcome ∧
      holds g (taken ++ accepted.filterMap (decoded? P)) delivered ∧
      delivered.endBlock = .ok (.ok outcome.event, ended) ∧
      after =
        { machine := ended
          phase := .idle
          height := block.header.height
          blocks := begun.blocks ++ [⟨block.header, block.transactions ++ accepted⟩]
          transitionHeight := height } := by
  rw [runBlock] at h
  obtain ⟨⟨delivery, last⟩, hdeliver, hrest⟩ := Checked.bind_eq_ok_iff.1 h
  obtain ⟨rejected, accepted, delivered, rfl, hdelivered, rfl⟩ :=
    deliverAll_eq_ok htracks hphase hholds hdeliver
  obtain ⟨⟨decided, closed⟩, hend, hcommit⟩ := Checked.bind_eq_ok_iff.1 hrest
  cases decided with
  | error e =>
    exact absurd rfl ((endBlock_eq_error htracks hdelivered hend).1 _)
  | ok event =>
    obtain ⟨block', ended, height, hphase', hended, rfl⟩ := endBlock_eq_ok hend
    cases hphase'
    cases hcommit
    exact ⟨⟨rejected, event⟩, accepted, delivered, ended, height, rfl, hdelivered, hended, rfl⟩

/-- A block is refused only at its beginning, and leaves no trace then. -/
theorem processBlock_eq_error {e : Error} (htracks : Machine.Tracks holds)
    (hholds : holds g taken replica.machine)
    (h : replica.processBlock block = .ok (.error e, after)) : after = replica := by
  rcases processBlock_cases h with ⟨e, -, hbegin⟩ | ⟨begun, last, hbegin, hrun, -⟩
  · exact beginBlock_eq_error htracks hholds hbegin
  · obtain ⟨_, _, event, timed, htime, rfl⟩ := beginBlock_eq_ok hbegin
    obtain ⟨_, _, hpasses⟩ := htracks.updateTime hholds htime
    obtain ⟨next, hnext⟩ := hpasses.exists_holds
    obtain ⟨outcome, _, _, _, _, hanswer, _⟩ := runBlock_eq_ok htracks rfl hnext hrun
    cases hanswer

theorem processBlock_eq_ok {outcome : BlockOutcome ε} (htracks : Machine.Tracks holds)
    (hholds : holds g taken replica.machine)
    (h : replica.processBlock block = .ok (.ok outcome, after)) :
    ∃ fired timed next accepted delivered ended height,
      replica.machine.updateTime block.header.timestamp = .ok (.ok fired, timed) ∧
      holds next (Machine.remaining fired taken) timed ∧
      holds next (Machine.remaining fired taken ++ accepted.filterMap (decoded? P)) delivered ∧
      delivered.endBlock = .ok (.ok outcome.event, ended) ∧
      after =
        { machine := ended
          phase := .idle
          height := block.header.height
          blocks := replica.blocks ++ [⟨block.header, accepted⟩]
          transitionHeight := height } := by
  obtain ⟨begun, hbegin, hrun⟩ := begun_of_processBlock h
  obtain ⟨_, _, fired, timed, htime, rfl⟩ := beginBlock_eq_ok hbegin
  obtain ⟨event, hanswer, hpasses⟩ := htracks.updateTime hholds htime
  obtain rfl := Except.ok.inj hanswer
  obtain ⟨next, hnext⟩ := hpasses.exists_holds
  obtain ⟨outcome', accepted, delivered, ended, height, heq, hdelivered, hended, rfl⟩ :=
    runBlock_eq_ok htracks rfl hnext hrun
  cases heq
  exact ⟨fired, timed, next, accepted, delivered, ended, height, htime, hnext, hdelivered,
    hended, rfl⟩

end Block

/-! ## Any number of blocks -/

section Run
variable {holds : γ → List (Transaction P) → Machine ρ ε κ σ → Prop} {g : γ}
  {start replica after : Replica ρ ε κ σ} {since : Nat} {block : Block}

/-- The current round has taken what the log holds since it was entered. -/
structure Tracked (holds : γ → List (Transaction P) → Machine ρ ε κ σ → Prop)
    (replica : Replica ρ ε κ σ) (since : Nat) : Prop where
  since_le : since ≤ replica.blocks.length
  round : ∃ g, holds g (committedSince P replica.blocks since) replica.machine

/-- A processed block: a timeout at its start, then what has been delivered, then its end. -/
theorem Tracked.stages {outcome : BlockOutcome ε} (htracks : Machine.Tracks holds)
    (h : Tracked holds replica since)
    (hblock : replica.processBlock block = .ok (.ok outcome, after)) :
    ∃ fired timed next delivered,
      replica.machine.updateTime block.header.timestamp = .ok (.ok fired, timed) ∧
      holds next (committedSince P replica.blocks
        (enteredAt fired replica.blocks.length since)) timed ∧
      holds next (committedSince P after.blocks
        (enteredAt fired replica.blocks.length since)) delivered ∧
      delivered.endBlock = .ok (.ok outcome.event, after.machine) ∧
      enteredAt fired replica.blocks.length since ≤ after.blocks.length := by
  obtain ⟨g, hholds⟩ := h.round
  obtain ⟨fired, timed, next, accepted, delivered, ended, height, htime, htimed, hdelivered, hended,
    rfl⟩ := processBlock_eq_ok htracks hholds hblock
  have hentered : enteredAt fired replica.blocks.length since ≤ replica.blocks.length :=
    enteredAt_le (Nat.le_refl _) h.since_le
  have hnew : transactionsIn P [⟨block.header, accepted⟩] = accepted.filterMap (decoded? P) := by
    simp [transactionsIn]
  refine ⟨fired, timed, next, delivered, htime, ?_, ?_, hended, ?_⟩
  · rw [committedSince_enteredAt]
    exact htimed
  · rw [committedSince_append hentered, committedSince_enteredAt, hnew]
    exact hdelivered
  · rw [List.length_append]
    omega

theorem Follows.tracked (htracks : Machine.Tracks holds) (hstart : holds g [] start.machine)
    (h : Follows start replica since) : Tracked holds replica since := by
  induction h with
  | start =>
    refine ⟨Nat.le_refl _, g, ?_⟩
    have hnone : start.blocks.drop start.blocks.length = [] := List.drop_length
    rw [committedSince, hnone]
    exact hstart
  | @refused replica after since block e _ hblock ih =>
    obtain ⟨g, hholds⟩ := ih.round
    rw [processBlock_eq_error htracks hholds hblock]
    exact ih
  | @processed replica after since block fired timed outcome _ htime hblock ih =>
    obtain ⟨fired', timed', next, delivered, htime', _, hdelivered, hended, hle⟩ :=
      ih.stages htracks hblock
    rw [htime] at htime'
    cases htime'
    obtain ⟨event, hanswer, hpasses⟩ := htracks.endBlock hdelivered hended
    obtain rfl := Except.ok.inj hanswer
    obtain ⟨last, hlast⟩ := hpasses.exists_holds
    refine ⟨enteredAt_le (Nat.le_refl _) hle, last, ?_⟩
    rw [committedSince_enteredAt]
    exact hlast

end Run

end QuorumRounds.Replica
