import QuorumRounds.Proofs.PriceOracle.Running
import QuorumRounds.Proofs.Replica.Lifecycle
import QuorumRounds.Workflow

/-! # The life of a block

The theorem is about every machine, and so about every application. The run after it is one of the
price oracle, and the last one is one of an application that answers out of turn. -/

namespace QuorumRounds.PriceOracle
set_option autoImplicit false

open Replica (Call Effect Entry Journal Lifecycle)

/-- Whatever is called, it is made of single calls, and so every transcript has a journal of them. After
every journal the stage, the heights and the committed blocks fit together, and one more call, also one
that fails, keeps to the order of calls. The stage and the block are kept in step as fields of their
own. -/
theorem blocks_keep_their_lifecycle {ρ ε κ σ P : Type} [Ord ρ] [Ord ε] [Ord κ]
    [RoundBehavior σ P ε] [Wire P] (machine : Machine ρ ε κ σ) :
    (∀ calls entries replica,
      (Replica.ofMachine machine).transcript calls = .ok (entries, replica) →
      ∃ parts : List (List Entry), Journal (Replica.ofMachine machine) parts.flatten replica ∧
        List.Forall₂ Entry.MadeOf entries parts) ∧
    (∀ journal replica, Journal (Replica.ofMachine machine) journal replica →
      Lifecycle journal replica ∧
      ∀ call answer after, call.isSingle = true → replica.reply call = .ok (answer, after) →
        Effect journal replica call answer after) ∧
    (∀ calls, (Replica.ofMachine machine).spread.transcript calls =
      ((Replica.ofMachine machine).transcript calls).map fun (entries, replica) =>
        (entries, replica.spread)) ∧
    ∀ (fields after : SpreadReplica ρ ε κ σ) call answer, fields.InStep →
      fields.reply call = .ok (answer, after) → after.InStep := by
  refine ⟨fun calls entries replica htranscript => Journal.start.transcript htranscript, ?_,
    fun calls => Replica.spread_transcript _ calls,
    fun fields after call answer hstep hreply => hstep.reply hreply⟩
  intro journal replica hjournal
  have hlifecycle := hjournal.lifecycle
  exact ⟨hlifecycle, fun call answer after hsingle hreply => hlifecycle.effect hsingle hreply⟩

/-- A delivery comes too early, another one does not decode, and the last block leaves out a second
registration of the same sender. -/
def earlyCalls : List Call :=
  [.deliverTx (sent "a" .registration), .beginBlock ⟨1, .ofSeconds 1⟩,
    .deliverTx (sent "a" .registration), .deliverTx [1], .endBlock, .commit,
    .processBlock (blockFrom 2 ["a", "b", "c", "d"] .registration)]

/-- The blocks hold only what has been delivered, and a block of another height changes nothing. -/
theorem blocks_keep_their_lifecycle_of_four :
    ∃ (machine : OracleMachine) (entries : List Entry) (replica : OracleReplica)
      (parts : List (List Entry)),
      SetUp {} fourAddresses fourConfig (Replica.ofMachine machine) ∧
      (Replica.ofMachine machine).transcript earlyCalls = .ok (entries, replica) ∧
      List.Forall₂ Entry.MadeOf entries parts ∧ Lifecycle parts.flatten replica ∧
      replica.blocks = [blockFrom 1 ["a"] .registration, blockFrom 2 ["b", "c", "d"] .registration] ∧
      ∀ answer after, replica.reply (.beginBlock ⟨4, .ofSeconds 4⟩) = .ok (answer, after) →
        answer = .error (.heightDoesNotFollow 4 2) ∧ after = replica := by
  have hrun : (({} : Settings).start? fourAddresses fourConfig).map (fun start =>
      (start.transcript earlyCalls).map fun (_, replica) =>
        (replica.phase, replica.height, replica.blocks)) =
      some (.ok (.idle, 2,
        [blockFrom 1 ["a"] .registration, blockFrom 2 ["b", "c", "d"] .registration])) := by
    decide +kernel
  obtain ⟨start, ⟨entries, replica⟩, hsetUp, htranscript, hseen⟩ := exists_after hrun
  obtain ⟨hphase, hheight, hblocks⟩ : replica.phase = .idle ∧ replica.height = 2 ∧ _ := by
    simpa only [Prod.mk.injEq] using hseen
  have hstart := hsetUp.eq_ofMachine
  rw [hstart] at hsetUp htranscript
  obtain ⟨hmade, hkeeps, _⟩ := blocks_keep_their_lifecycle start.machine
  obtain ⟨parts, hjournal, hparts⟩ := hmade _ _ _ htranscript
  obtain ⟨hlifecycle, heffect⟩ := hkeeps _ _ hjournal
  refine ⟨start.machine, entries, replica, parts, hsetUp, htranscript, hparts, hlifecycle, hblocks, ?_⟩
  intro answer after hreply
  have hother := (heffect _ _ _ rfl hreply).at_other_height _ rfl hphase (by rw [hheight]; decide)
  rwa [hheight] at hother

/-! ## An application that answers out of turn -/

section Barred
open Workflow

/-- Prices are agreed on for ten seconds at most. The round that follows is never built, and the reason
that is given for it is one that a block out of order would have. -/
def barred : Application String String Kind (Workflow.Round Kind) :=
  let workflow : Workflow Kind :=
    { initial := "open"
      finals := .singleton "closed"
      edges := [("open", "late", "closed")]
      timeouts := .ofList [("late", .ofSeconds 10)]
      rounds := .ofList [("open",
        { rule := .sameUntilThreshold
          allowed := .estimate
          done := "done"
          noMajority := "no_majority"
          needs := []
          writes := []
          jammed := false })] }
  { workflow.application with
    build := fun round context =>
      if round = "closed" then .error (.heightDoesNotFollow 2 2)
      else workflow.build round context }

def barredMachine? : Option (Machine String String Kind (Workflow.Round Kind)) :=
  (Machine.ofApplication barred (Settings.setupData ["a", "b", "c", "d"])
    (.ofParams fourConfig.params) ∅).toOption

set_option synthInstance.maxSize 1000 in
/-- The second block is in turn, and is refused as if it were not; but its timestamp has been seen, and
the timeout is gone. -/
theorem refused_block_leaves_its_timestamp :
    ∃ (machine entered : Machine String String Kind (Workflow.Round Kind)) (entries : List Entry)
      (replica after : Replica String String Kind (Workflow.Round Kind)),
      barredMachine? = some machine ∧ machine.setup = .ok (.ok (), entered) ∧
      (Replica.ofMachine entered).transcript [.beginBlock ⟨1, .ofSeconds 0⟩, .endBlock, .commit] =
        .ok (entries, replica) ∧
      replica.reply (.beginBlock ⟨2, .ofSeconds 10⟩) =
        .ok (.error (.heightDoesNotFollow 2 2), after) ∧
      replica.machine.lastTimestamp = some (.ofSeconds 0) ∧ replica.machine.timeouts.size = 1 ∧
      after.machine.lastTimestamp = some (.ofSeconds 10) ∧ after.machine.timeouts.size = 0 ∧
      after ≠ replica := by
  have hrun : (barredMachine?.map fun machine => do
      let (answer, entered) ← machine.setup
      let (_, replica) ← (Replica.ofMachine entered).transcript
        [.beginBlock ⟨1, .ofSeconds 0⟩, .endBlock, .commit]
      let (refused, after) ← replica.reply (.beginBlock ⟨2, .ofSeconds 10⟩)
      pure ([answer, refused], [replica.machine.lastTimestamp, after.machine.lastTimestamp],
        [replica.machine.timeouts.size, after.machine.timeouts.size])) =
      some (.ok ([.ok (), .error (.heightDoesNotFollow 2 2)],
        [some (.ofSeconds 0), some (.ofSeconds 10)], [1, 0])) := by
    decide +kernel
  obtain ⟨machine, hmachine, hcalls⟩ := Option.map_eq_some_iff.1 hrun
  obtain ⟨⟨answer, entered⟩, hsetup, hcalls⟩ := Checked.bind_eq_ok_iff.1 hcalls
  obtain ⟨⟨entries, replica⟩, htranscript, hcalls⟩ := Checked.bind_eq_ok_iff.1 hcalls
  obtain ⟨⟨refused, after⟩, hrefused, heq⟩ := Checked.bind_eq_ok_iff.1 hcalls
  simp only [Checked.pure_eq_ok, Except.ok.injEq, Prod.mk.injEq, List.cons.injEq, and_true] at heq
  obtain ⟨⟨rfl, rfl⟩, ⟨hbefore, hafter⟩, hone, hnone⟩ := heq
  refine ⟨machine, entered, entries, replica, after, hmachine, hsetup, htranscript, hrefused, hbefore,
    hone, hafter, hnone, ?_⟩
  rintro rfl
  rw [hone] at hnone
  cases hnone

end Barred

end QuorumRounds.PriceOracle
