import QuorumRounds.Proofs.PriceOracle.Sound
import QuorumRounds.Proofs.Replica.Partition

/-! # Every block of the price oracle completes -/

namespace QuorumRounds.PriceOracle
set_option autoImplicit false

/-- Whatever has been called before, on the replica or on its machine: a block of the next height,
with any bytes as transactions, is committed with exactly those transactions that pass their check
where they are delivered. Any other block is refused and changes nothing. -/
theorem blocks_complete {settings : Settings} {setup : SortedMap String Value}
    {config : Config RoundKind} {registry : Registry Kind} {machine : OracleMachine}
    {replica after : OracleReplica} {block : Block} {answer : Except Error (BlockOutcome Event)}
    (hmachine : Machine.ofApplication settings.application setup config registry = .ok machine)
    (hreplica : (Replica.ofMachine machine).Reachable replica)
    (hblock : replica.processBlock block = .ok (answer, after)) :
    (replica.phase = .idle → Word.succ replica.height = .ok block.header.height →
      ∃ outcome begun kept, answer = .ok outcome ∧
        replica.beginBlock block.header = .ok (.ok (), begun) ∧
        Replica.Partition begun block.transactions outcome.rejected kept ∧
        after.phase = .idle ∧ after.height.toNat = replica.height.toNat + 1 ∧
        after.blocks = replica.blocks ++ [⟨block.header, kept⟩]) ∧
    (replica.phase ≠ .idle →
      answer = .error (.requestNotAllowed .beginBlock replica.phase.stage) ∧ after = replica) ∧
    (replica.phase = .idle → Word.succ replica.height ≠ .ok block.header.height →
      answer = .error (.heightDoesNotFollow block.header.height replica.height) ∧
        after = replica) := by
  have htracks := soundTracks settings
  have hupholds : machine.Upholds settings.application Round.Sound := .ofApplication hmachine
  have hheld : Replica.Held (fun (_ : Unit) (_ : List (Transaction Payload)) machine =>
      Machine.Upholds settings.application Round.Sound machine) replica := by
    refine .reachable htracks ?_ ⟨(), [], hupholds⟩ hreplica
    intro _ _ machine after call answer h hcall
    obtain ⟨_, houtcome, _⟩ := Machine.call_outcome hcall
    exact ⟨(), [], h.outcome (soundness settings) houtcome⟩
  refine ⟨?_, Replica.processBlock_refused htracks hheld hblock⟩
  intro hidle hheight
  obtain ⟨outcome, begun, kept, hanswer, hbegin, hpartition, hphase, hafter, hblocks⟩ :=
    Replica.processBlock_partition htracks hheld hidle hheight hblock
  refine ⟨outcome, begun, kept, hanswer, hbegin, hpartition, hphase, ?_, hblocks⟩
  rw [hafter]
  exact Word.succ_eq_ok_iff.1 hheight

/-- Bytes that are no transaction, the registrations of three participants, and one of them again. -/
def mixedBlock : Block :=
  ⟨⟨1, .ofSeconds 1⟩, [0] :: ["a", "b", "c", "a"].map (sent · .registration)⟩

/-- The first registration of each participant is kept. -/
theorem blocks_complete_mixed :
    ∃ (machine : OracleMachine) (replica after begun : OracleReplica)
      (outcome : BlockOutcome Event),
      ({} : Settings).machine fourAddresses fourConfig = .ok machine ∧
      (Replica.ofMachine machine).Reachable replica ∧
      replica.processBlock mixedBlock = .ok (.ok outcome, after) ∧
      outcome.rejected = [(0, .encoding .endOfInput),
        (4, .invalidTransaction (.senderAlreadyAdded "a" "registration"))] ∧
      Replica.Partition begun mixedBlock.transactions outcome.rejected
        (["a", "b", "c"].map (sent · .registration)) ∧
      after.height.toNat = 1 ∧ after.blocks = [blockFrom 1 ["a", "b", "c"] .registration] := by
  have hrun : (({} : Settings).start? fourAddresses fourConfig).map (fun replica =>
      (replica.processBlock mixedBlock).map fun (answer, _) =>
        answer.toOption.map BlockOutcome.rejected) =
      some (.ok (some [(0, .encoding .endOfInput),
        (4, .invalidTransaction (.senderAlreadyAdded "a" "registration"))])) := by
    decide +kernel
  obtain ⟨replica, ⟨answer, after⟩, hsetUp, hblock, hseen⟩ := exists_after hrun
  have hnew := hsetUp.eq_ofMachine
  have hidle : replica.phase = .idle := by rw [hnew, Replica.ofMachine]
  have hnext : Word.succ replica.height = .ok mixedBlock.header.height := by
    rw [hnew, Replica.ofMachine]
    rfl
  have hnone : replica.blocks = [] := by rw [hnew, Replica.ofMachine]
  obtain ⟨machine, hmachine, hsetup⟩ := hsetUp
  have hreachable : (Replica.ofMachine machine).Reachable replica := .setup .start hsetup
  obtain ⟨shapes, hregistered⟩ := ofApplication_of_machine hmachine
  obtain ⟨outcome, begun, kept, rfl, _, hpartition, _, hheight, hblocks⟩ :=
    (blocks_complete hregistered hreachable hblock).1 hidle hnext
  have hrejected := Option.some.inj hseen
  have hkept : kept = ["a", "b", "c"].map (sent · .registration) := by
    have heq := hpartition.kept_eq
    rw [hrejected] at heq
    exact heq.trans rfl
  subst hkept
  have hzero : replica.height.toNat = 0 := by
    rw [hnew]
    rfl
  rw [hzero] at hheight
  rw [hnone, List.nil_append] at hblocks
  exact ⟨machine, replica, after, begun, outcome, hmachine, hreachable, hblock, hrejected, hpartition,
    hheight, hblocks⟩

end QuorumRounds.PriceOracle
