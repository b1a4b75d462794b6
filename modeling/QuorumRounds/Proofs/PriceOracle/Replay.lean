import QuorumRounds.Proofs.PriceOracle.Running
import QuorumRounds.Proofs.Replica.Replay

/-! # Replicas of the price oracle converge

The committed blocks of a replica lead another one, which has just been set up, to the same state,
and none of their transactions is refused then. How the first replica came to commit them does not
matter: its calls may have come in any order, and any of them may have been refused. -/

namespace QuorumRounds.PriceOracle
set_option autoImplicit false

theorem committed_blocks_replay {settings : Settings} {participants : SortedSet String}
    {config : Config RoundKind} {first second last : OracleReplica} {calls : List Replica.Call}
    (hfirst : SetUp settings participants config first)
    (hsecond : SetUp settings participants config second)
    (hsteps : ∀ c ∈ calls, c.isStep = true) (hrun : first.run calls = .ok last)
    (hidle : last.phase = .idle) :
    ∃ outcomes, second.processAll last.blocks = .ok (outcomes, last) ∧
      outcomes.length = last.blocks.length ∧
      ∀ outcome ∈ outcomes, ∃ event, outcome = .ok ⟨[], event⟩ := by
  obtain rfl := hfirst.unique hsecond
  obtain ⟨hphase, hblocks, current, hrunning, _⟩ := hfirst.running
  have hstart : Replica.Replays first first.phase first := by
    have hnone : first.processAll first.blocks = .ok ([], first) := by
      rw [hblocks]
      rfl
    rw [hphase]
    apply Replica.Replays.idle hnone
    intro outcome houtcome
    cases houtcome
  obtain ⟨outcomes, hall, hclean⟩ :=
    Replica.replay_of_run (tracks settings config) hstart ⟨current, [], hrunning⟩ hsteps hrun hidle
  exact ⟨outcomes, hall, Replica.length_of_processAll hall, hclean⟩

/-- Two blocks. In the first all four register, one of them with a byte too many; the second begins
with the timeout of the round that follows. Most of the other calls are refused. -/
def refusedCalls : List Replica.Call :=
  [.deliverTx (sent "a" .registration), .beginBlock ⟨2, .ofSeconds 0⟩,
    .beginBlock ⟨1, .ofSeconds 5⟩, .deliverTx [1], .deliverTx (sent "a" .registration ++ [7]),
    .deliverTx (sent "a" .registration), .checkTx (sent "a" .registration), .commit] ++
  ["b", "c", "d"].map (fun sender => .deliverTx (sent sender .registration)) ++
  [.endBlock, .deliverTx (sent "a" .registration), .commit, .beginBlock ⟨2, .ofSeconds 40⟩,
    .deliverTx (sent "a" .registration), .endBlock, .endBlock, .commit]

def refusedBlocks : List Block :=
  [⟨⟨1, .ofSeconds 5⟩,
      (sent "a" .registration ++ [7]) :: ["b", "c", "d"].map (sent · .registration)⟩,
    ⟨⟨2, .ofSeconds 40⟩, []⟩]

theorem committed_blocks_replay_of_four :
    ∃ start last, SetUp {} fourAddresses fourConfig start ∧ start.run refusedCalls = .ok last ∧
      last.blocks = refusedBlocks ∧ last.machine.currentKind = some .reset ∧
      ∃ outcomes, start.processAll last.blocks = .ok (outcomes, last) ∧ outcomes.length = 2 ∧
        ∀ outcome ∈ outcomes, ∃ event, outcome = .ok ⟨[], event⟩ := by
  have hrun : (({} : Settings).start? fourAddresses fourConfig).map (fun start =>
      (start.run refusedCalls).map fun last =>
        (last.phase, last.blocks, last.machine.currentKind)) =
      some (.ok (.idle, refusedBlocks, some .reset)) := by decide +kernel
  obtain ⟨start, last, hsetUp, hcalls, hseen⟩ := exists_after hrun
  simp only [Prod.mk.injEq] at hseen
  obtain ⟨hidle, hblocks, hkind⟩ := hseen
  obtain ⟨outcomes, hall, hlength, hclean⟩ :=
    committed_blocks_replay hsetUp hsetUp (by decide) hcalls hidle
  rw [hblocks] at hlength
  exact ⟨start, last, hsetUp, hcalls, hblocks, hkind, outcomes, hall, hlength, hclean⟩

end QuorumRounds.PriceOracle
