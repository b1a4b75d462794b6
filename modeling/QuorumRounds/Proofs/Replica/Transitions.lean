import QuorumRounds.Proofs.Replica.Partition

/-! # Rounds that follow one another in a block

The transactions of a block go to one round, and nothing but this round decides what becomes of them
(`Sorts.settles`). Before them a timeout may have ended another round, and after them the round may
decide: each raises the height of the machine by one (`Machine.Climbs`).

The two transitions record the height of the block in different ways, one as the height that the
block claims and the other as the one that follows the last block. Both are the height of the block
(`Processed.transitionHeight_eq`), so that after any run the recorded height is that of the latest
block in which the machine has risen (`transitionHeight_of_processAll`). -/

namespace QuorumRounds
set_option autoImplicit false

variable {ρ ε κ σ P γ : Type} [Ord ρ] [Ord ε] [Ord κ] [RoundBehavior σ P ε]

/-! ## What a round makes of transactions -/

namespace RoundBehavior
variable [Wire P] {round next settled : σ} {bytes : List UInt8} {rest kept : List (List UInt8)}
  {index : Nat} {rejected : List (Nat × Error)}

def deliver (round : σ) (bytes : List UInt8) : Checked (Except Error Unit × σ) :=
  match Wire.decode (Transaction P) bytes with
  | .error e => .ok (.error e, round)
  | .ok tx => do
    match ← check round tx with
    | .error reason => pure (.error (.invalidTransaction reason), round)
    | .ok () =>
      let (answer, after) ← process round tx
      pure (answer.mapError .internal, after)

/-- What is left out and why, by index, what is kept, and the round after all of it. -/
def deliverAll (round : σ) (index : Nat) :
    List (List UInt8) → Checked (List (Nat × Error) × List (List UInt8) × σ)
  | [] => .ok ([], [], round)
  | bytes :: rest => do
    let (answer, next) ← deliver round bytes
    let (rejected, kept, settled) ← deliverAll next (index + 1) rest
    match answer with
    | .ok () => pure (rejected, bytes :: kept, settled)
    | .error e => pure ((index, e) :: rejected, kept, settled)

omit [Ord ε] in
theorem deliverAll_taken (h : deliver round bytes = .ok (.ok (), next))
    (hrest : deliverAll next (index + 1) rest = .ok (rejected, kept, settled)) :
    deliverAll round index (bytes :: rest) = .ok (rejected, bytes :: kept, settled) := by
  rw [deliverAll, h, Checked.ok_bind]
  simp only [hrest]
  rfl

omit [Ord ε] in
theorem deliverAll_leftOut {e : Error} (h : deliver round bytes = .ok (.error e, next))
    (hrest : deliverAll next (index + 1) rest = .ok (rejected, kept, settled)) :
    deliverAll round index (bytes :: rest) = .ok ((index, e) :: rejected, kept, settled) := by
  rw [deliverAll, h, Checked.ok_bind]
  simp only [hrest]
  rfl

end RoundBehavior

namespace Replica
section Delivery
variable [Wire P] {replica after last : Replica ρ ε κ σ} {kind : ρ} {round : σ} {block : Block}
  {bytes : List UInt8} {transactions kept : List (List UInt8)} {index : Nat}
  {rejected : List (Nat × Error)}

theorem deliver_of_checkTx {e : Error} (hcurrent : replica.machine.current = some (kind, round))
    (h : replica.checkTx bytes = .ok (.error e)) :
    RoundBehavior.deliver round bytes = .ok (.error e, round) := by
  rw [checkTx] at h
  rw [RoundBehavior.deliver]
  cases hdecode : Wire.decode (Transaction P) bytes with
  | error cause =>
    rw [hdecode] at h
    cases h
    rfl
  | ok tx =>
    simp only [hdecode, Machine.checkTransaction, hcurrent] at h
    obtain ⟨answer, hcheck, heq⟩ := Checked.bind_eq_ok_iff.1 h
    simp only [hcheck, Checked.ok_bind]
    cases answer with
    | error reason =>
      cases heq
      rfl
    | ok _ => cases heq

theorem deliver_of_deliverTx (hcurrent : replica.machine.current = some (kind, round))
    (h : replica.deliverTx bytes = .ok (.ok (), after)) :
    ∃ next, RoundBehavior.deliver round bytes = .ok (.ok (), next) ∧
      after.machine = { replica.machine with current := some (kind, next) } := by
  obtain ⟨_, tx, machine, _, hdecoded, hcheck, hprocess, rfl⟩ := deliverTx_eq_ok h
  have hpass := Machine.checkTransaction_eq_ok hcurrent hcheck
  obtain ⟨taken, next, hmoved, hanswer, rfl⟩ := Machine.processTransaction_eq_ok hcurrent hprocess
  refine ⟨next, ?_, rfl⟩
  rw [RoundBehavior.deliver]
  simp only [decode_of_decoded? hdecoded, hpass, Checked.ok_bind, hmoved, ← hanswer]
  rfl

/-- Nothing of the machine takes part in the delivery but its round. -/
theorem Sorts.settles (h : Sorts replica index transactions rejected kept last)
    (hcurrent : replica.machine.current = some (kind, round)) :
    ∃ settled, RoundBehavior.deliverAll round index transactions = .ok (rejected, kept, settled) ∧
      last.machine = { replica.machine with current := some (kind, settled) } := by
  induction h generalizing round with
  | done replica index => exact ⟨round, rfl, by rw [← hcurrent]⟩
  | taken _ hdeliver _ ih =>
    obtain ⟨next, hnext, hmachine⟩ := deliver_of_deliverTx hcurrent hdeliver
    obtain ⟨settled, hrest, hlast⟩ := ih (by rw [hmachine])
    exact ⟨settled, RoundBehavior.deliverAll_taken hnext hrest, by rw [hlast, hmachine]⟩
  | leftOut hcheck _ _ _ ih =>
    obtain ⟨settled, hrest, hlast⟩ := ih hcurrent
    exact ⟨settled, RoundBehavior.deliverAll_leftOut (deliver_of_checkTx hcurrent hcheck) hrest, hlast⟩

end Delivery
end Replica

/-! ## Rounds that follow -/

namespace Machine
variable {machine after : Machine ρ ε κ σ} {kind : ρ} {round : σ}

/-- On the event the machine has gone on to the round that follows on the kind, which is new and has
the store. -/
def Advances (machine : Machine ρ ε κ σ) (kind : ρ) (event : ε) (store : Store)
    (after : Machine ρ ε κ σ) : Prop :=
  ∃ next successor, machine.app.transitions.next? kind event = some next ∧
    machine.build next store = .ok successor ∧ after.current = some (next, successor) ∧
    Word.succ machine.height = .ok after.height

/-- Only the application, its settings and the height count. -/
theorem EventOutcome.advances {event : ε} {result : Option Store} {moved : Except Error Unit}
    {next : ρ} {successor : σ} (h : EventOutcome machine event result moved after)
    (hcurrent : machine.current = some (kind, round))
    (hnext : machine.app.transitions.next? kind event = some next)
    (hbuild : machine.build next (result.getD (RoundBehavior.store round)) = .ok successor) :
    moved = .ok () ∧ machine.Advances kind event (result.getD (RoundBehavior.store round)) after := by
  obtain ⟨hmoved, height, hheight, henter⟩ := h.of_build hcurrent hnext hbuild
  obtain ⟨timeouts, awaitsTime, _, rfl⟩ := enter_eq_ok henter
  exact ⟨hmoved, next, successor, hnext, hbuild, rfl, hheight⟩

theorem updateTime_advances {now : Duration} {fired : Option ε}
    (hcurrent : machine.current = some (kind, round))
    (hedge : ∀ event, fired = some event → ∃ next successor,
      machine.app.transitions.next? kind event = some next ∧
        machine.build next (RoundBehavior.store round) = .ok successor)
    (h : machine.updateTime now = .ok (.ok fired, after)) :
    fired = none ∧ after.current = machine.current ∧ after.height = machine.height ∨
      ∃ event, fired = some event ∧
        machine.Advances kind event (RoundBehavior.store round) after := by
  cases fired with
  | none =>
    have hsame := eq_of_updateTime_none h
    obtain ⟨timeouts, rfl⟩ := hsame
    exact .inl ⟨rfl, rfl, rfl⟩
  | some event =>
    obtain ⟨_, _, _, _, moved, _, _, hanswer, hevent⟩ := expired_of_updateTime h nofun
    cases moved <;> cases hanswer
    obtain ⟨next, successor, hnext, hbuild⟩ := hedge event rfl
    exact .inr ⟨event, rfl, (hevent.advances hcurrent hnext hbuild).2⟩

theorem endBlock_advances {decided : Option ε} (hcurrent : machine.current = some (kind, round))
    (hedge : ∀ store event asked, RoundBehavior.endBlock round = .ok (some (store, event), asked) →
      ∃ next successor, machine.app.transitions.next? kind event = some next ∧
        machine.build next store = .ok successor)
    (h : machine.endBlock = .ok (.ok decided, after)) :
    decided = none ∧ after.height = machine.height ∨
      ∃ event store asked, decided = some event ∧
        RoundBehavior.endBlock round = .ok (some (store, event), asked) ∧
        machine.Advances kind event store after := by
  obtain ⟨outcome, asked, hasked, ⟨rfl, hanswer, rfl⟩ | ⟨store, event, rfl, hfire⟩⟩ :=
    endBlock_eq_ok hcurrent h
  · cases hanswer
    exact .inl ⟨rfl, rfl⟩
  · obtain ⟨next, successor, hnext, hbuild⟩ := hedge store event asked hasked
    obtain ⟨moved, hanswer, hevent⟩ := fire_outcome hfire
    obtain ⟨rfl, hadvances⟩ := hevent.advances rfl hnext hbuild
    cases hanswer
    exact .inr ⟨event, store, asked, rfl, hasked, hadvances⟩

theorem Advances.height_eq {event : ε} {store : Store} (h : machine.Advances kind event store after) :
    after.height.toNat = machine.height.toNat + 1 := by
  obtain ⟨_, _, _, _, _, hheight⟩ := h
  exact Word.succ_eq_ok_iff.1 hheight

/-- A round is active, and every event raises the height by one. -/
structure Climbs (holds : γ → List (Transaction P) → Machine ρ ε κ σ → Prop) : Prop where
  active : ∀ {g taken machine}, holds g taken machine →
    ∃ kind round, machine.current = some (kind, round)
  updateTime : ∀ {g taken machine now fired after}, holds g taken machine →
    machine.updateTime now = .ok (.ok fired, after) →
    after.height.toNat = machine.height.toNat + fired.toList.length
  endBlock : ∀ {g taken machine decided after}, holds g taken machine →
    machine.endBlock = .ok (.ok decided, after) →
    after.height.toNat = machine.height.toNat + decided.toList.length

end Machine

/-! ## One block -/

namespace Replica
variable [Wire P] {holds : γ → List (Transaction P) → Machine ρ ε κ σ → Prop}
  {replica after last : Replica ρ ε κ σ} {block : Block} {outcome : BlockOutcome ε}

/-- A timeout may have fired at the start of the block. The round that is then active has taken the
transactions, and has been asked for its decision. -/
structure Processed (replica : Replica ρ ε κ σ) (block : Block) (outcome : BlockOutcome ε)
    (after : Replica ρ ε κ σ) (fired : Option ε) (timed : Machine ρ ε κ σ) (kind : ρ)
    (round settled : σ) (kept : List (List UInt8)) : Prop where
  timed_eq : replica.machine.updateTime block.header.timestamp = .ok (.ok fired, timed)
  current_eq : timed.current = some (kind, round)
  delivered_eq : RoundBehavior.deliverAll round 0 block.transactions =
    .ok (outcome.rejected, kept, settled)
  ended_eq : Machine.endBlock { timed with current := some (kind, settled) } =
    .ok (.ok outcome.event, after.machine)
  next_eq : Word.succ replica.height = .ok block.header.height
  height_eq : after.height = block.header.height
  blocks_eq : after.blocks = replica.blocks ++ [⟨block.header, kept⟩]
  rises_start : timed.height.toNat = replica.machine.height.toNat + fired.toList.length
  rises_end : after.machine.height.toNat = timed.height.toNat + outcome.event.toList.length
  transitionHeight_eq : after.transitionHeight =
    if replica.machine.height < after.machine.height then block.header.height
    else replica.transitionHeight

theorem runBlock_stages {begun : Replica ρ ε κ σ} {transactions : List (List UInt8)} {g : γ}
    {taken : List (Transaction P)} (htracks : Machine.Tracks holds)
    (hholds : holds g taken begun.machine) (hphase : begun.phase = .delivering block)
    (h : begun.runBlock transactions = .ok (.ok outcome, after)) :
    ∃ kept delivered height, Sorts begun 0 transactions outcome.rejected kept delivered ∧
      Held holds delivered ∧
      delivered.machine.endBlock = .ok (.ok outcome.event, after.machine) ∧
      ((∃ event, outcome.event = some event) ∧ Word.succ begun.height = .ok height ∨
        outcome.event = none ∧ height = begun.transitionHeight) ∧
      after.height = block.header.height ∧
      after.blocks = begun.blocks ++ [⟨block.header, block.transactions ++ kept⟩] ∧
      after.transitionHeight = height := by
  obtain ⟨outcome, kept, delivered, closed, heq, hsorts, hheld, hend, hcommit⟩ :=
    runBlock_sorts htracks hholds hphase h
  cases heq
  obtain ⟨machine, rfl⟩ := hsorts.last_eq hphase
  rcases endBlock_cases hend with ⟨hphase, _⟩ | ⟨_, ended, height, hphase', hended, hheight, rfl⟩
  · exact absurd rfl (hphase _)
  · cases hphase'
    cases hcommit
    refine ⟨kept, _, height, hsorts, hheld, hended, ?_, rfl, rfl, rfl⟩
    rcases hheight with ⟨⟨event, heq⟩, hheight⟩ | ⟨hnone, hheight⟩
    · exact .inl ⟨⟨event, Except.ok.inj heq⟩, hheight⟩
    · refine .inr ⟨Option.eq_none_iff_forall_ne_some.2 fun event hevent => ?_, hheight⟩
      exact hnone event (congrArg _ hevent)

omit [Ord ε] in
theorem lt_iff_of_rises {fired decided : Option ε} {old between new : UInt64}
    (hstart : between.toNat = old.toNat + fired.toList.length)
    (hend : new.toNat = between.toNat + decided.toList.length) :
    old < new ↔ fired.isSome = true ∨ decided.isSome = true := by
  rw [UInt64.lt_iff_toNat_lt, hend, hstart]
  cases fired with
  | none => cases decided <;> simp
  | some event =>
    simp only [Option.toList_some, List.length_singleton, Option.isSome_some, true_or, iff_true]
    omega

theorem exists_processed (htracks : Machine.Tracks holds) (hclimbs : Machine.Climbs holds)
    (hheld : Held holds replica) (h : replica.processBlock block = .ok (.ok outcome, after)) :
    ∃ fired timed kind round settled kept,
      Processed replica block outcome after fired timed kind round settled kept ∧
        ∃ g taken, holds g taken { timed with current := some (kind, settled) } := by
  obtain ⟨g, taken, hholds⟩ := hheld
  obtain ⟨begun, hbegin, hrun⟩ := begun_of_processBlock h
  obtain ⟨_, hnext, fired, timed, htime, rfl⟩ := beginBlock_eq_ok hbegin
  obtain ⟨event, hanswer, hpasses⟩ := htracks.updateTime hholds htime
  obtain rfl := Except.ok.inj hanswer
  obtain ⟨g', hbegun⟩ := hpasses.exists_holds
  obtain ⟨kept, delivered, height, hsorts, ⟨g'', taken', hdelivered⟩, hended, hheight, hafter,
    hblocks, htransition⟩ := runBlock_stages htracks hbegun rfl hrun
  obtain ⟨kind, round, hcurrent⟩ := hclimbs.active hbegun
  obtain ⟨settled, hsettled, hmachine⟩ := hsorts.settles hcurrent
  have hstart := hclimbs.updateTime hholds htime
  have hend := hclimbs.endBlock hdelivered hended
  rw [hmachine] at hended hend hdelivered
  refine ⟨fired, timed, kind, round, settled, kept, ⟨htime, hcurrent, hsettled, hended, hnext,
    hafter, hblocks, hstart, hend, ?_⟩, g'', taken', hdelivered⟩
  have hrises := lt_iff_of_rises hstart hend
  rw [htransition]
  rcases hheight with ⟨⟨decided, hdecided⟩, hheight⟩ | ⟨hdecided, rfl⟩
  · -- the height that follows the last block is the one that the block claims
    rw [if_pos (hrises.2 (.inr (by rw [hdecided]; rfl)))]
    exact Except.ok.inj (hheight.symm.trans hnext)
  · have hfired : replica.machine.height < after.machine.height ↔ fired.isSome = true := by
      rw [hrises, hdecided]
      simp
    simp only [hfired]

namespace Processed
variable {fired : Option ε} {timed : Machine ρ ε κ σ} {kind : ρ} {round settled : σ}
  {kept : List (List UInt8)}

theorem transitionHeight_le
    (h : Processed replica block outcome after fired timed kind round settled kept)
    (hle : replica.transitionHeight ≤ replica.height) :
    replica.transitionHeight ≤ after.transitionHeight ∧ after.transitionHeight ≤ after.height := by
  have hnext := Word.succ_eq_ok_iff.1 h.next_eq
  rw [UInt64.le_iff_toNat_le] at hle
  rw [h.transitionHeight_eq, h.height_eq, UInt64.le_iff_toNat_le, UInt64.le_iff_toNat_le]
  split
  · exact ⟨by omega, Nat.le_refl _⟩
  · exact ⟨Nat.le_refl _, by omega⟩

end Processed

/-! ## Any number of blocks -/

/-- The heights of the committed blocks in which the height of the machine has risen, in their
order. -/
def rises (replica : Replica ρ ε κ σ) : List Block → Checked (List UInt64)
  | [] => .ok []
  | block :: rest => do
    let (answer, after) ← replica.processBlock block
    let later ← after.rises rest
    match answer with
    | .ok _ =>
      pure (if replica.machine.height < after.machine.height then block.header.height :: later
        else later)
    | .error _ => pure later

section Rises
variable {rest : List Block} {later : List UInt64}

theorem rises_of_refused {e : Error} (hblock : replica.processBlock block = .ok (.error e, after))
    (hrest : after.rises rest = .ok later) : replica.rises (block :: rest) = .ok later := by
  rw [rises, hblock, Checked.ok_bind]
  simp only [hrest, Checked.ok_bind]
  rfl

theorem rises_of_committed (hblock : replica.processBlock block = .ok (.ok outcome, after))
    (hrest : after.rises rest = .ok later) :
    replica.rises (block :: rest) = .ok (if replica.machine.height < after.machine.height
      then block.header.height :: later else later) := by
  rw [rises, hblock, Checked.ok_bind]
  simp only [hrest, Checked.ok_bind]
  rfl

end Rises

theorem transitionHeight_le (htracks : Machine.Tracks holds) (hclimbs : Machine.Climbs holds)
    (hheld : Held holds replica) (hle : replica.transitionHeight ≤ replica.height)
    {answer : Except Error (BlockOutcome ε)}
    (hblock : replica.processBlock block = .ok (answer, after)) :
    replica.transitionHeight ≤ after.transitionHeight ∧ after.transitionHeight ≤ after.height := by
  cases answer with
  | error e =>
    obtain ⟨g, taken, hholds⟩ := hheld
    rw [processBlock_eq_error htracks hholds hblock]
    exact ⟨UInt64.le_refl _, hle⟩
  | ok outcome =>
    obtain ⟨_, _, _, _, _, _, hprocessed, _⟩ := exists_processed htracks hclimbs hheld hblock
    exact hprocessed.transitionHeight_le hle

/-- Blocks that are refused leave the recorded height as it is. -/
theorem transitionHeight_of_processAll (htracks : Machine.Tracks holds)
    (hclimbs : Machine.Climbs holds) (hheld : Held holds replica)
    (hle : replica.transitionHeight ≤ replica.height) {blocks : List Block}
    {outcomes : List (Except Error (BlockOutcome ε))}
    (hall : replica.processAll blocks = .ok (outcomes, last)) :
    last.transitionHeight ≤ last.height ∧ ∃ heights, replica.rises blocks = .ok heights ∧
      last.transitionHeight = heights.getLast?.getD replica.transitionHeight := by
  induction blocks generalizing replica outcomes with
  | nil =>
    cases hall
    exact ⟨hle, [], rfl, rfl⟩
  | cons block rest ih =>
    obtain ⟨answer, others, next, rfl, hblock, hothers⟩ := processAll_cons_eq_ok hall
    have hnext := (transitionHeight_le htracks hclimbs hheld hle hblock).2
    obtain ⟨hbound, later, hlater, hlast⟩ := ih (hheld.processBlock htracks hblock) hnext hothers
    refine ⟨hbound, ?_⟩
    cases answer with
    | error e =>
      obtain ⟨g, taken, hholds⟩ := hheld
      refine ⟨later, rises_of_refused hblock hlater, ?_⟩
      rw [hlast, processBlock_eq_error htracks hholds hblock]
    | ok outcome =>
      obtain ⟨_, _, _, _, _, _, hprocessed, _⟩ := exists_processed htracks hclimbs hheld hblock
      refine ⟨_, rises_of_committed hblock hlater, ?_⟩
      rw [hlast, hprocessed.transitionHeight_eq]
      split
      · rw [List.getLast?_cons, Option.getD_some]
      · rfl

end Replica

end QuorumRounds
