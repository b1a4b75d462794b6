import QuorumRounds.Proofs.Ballot.Agreement
import QuorumRounds.Proofs.PriceOracle.Service
import QuorumRounds.Proofs.PriceOracle.Twins
import QuorumRounds.Proofs.Replica.Reorder

/-! # The order of the transactions in a block does not matter

Two blocks that hold the same transactions, no two of one sender, have the same transactions accepted
and emit the same event (`order_is_immaterial`). The replicas then agree (`Agree`): they may differ in
the signs of zero estimates, and go on differing in nothing else whatever blocks follow. -/

namespace QuorumRounds.PriceOracle
set_option autoImplicit false
open Checked (Both SameAnswer)

/-- The replicas show the same, up to the signs of zero estimates. -/
structure Agree (a b : OracleReplica) : Prop where
  kind_eq : a.machine.currentKind = b.machine.currentKind
  roundHeight_eq : a.machine.height = b.machine.height
  previousRounds_eq : a.machine.previousRounds = b.machine.previousRounds
  roundResults_eq : a.machine.roundResults.map unsigned = b.machine.roundResults.map unsigned
  store_eq : unsigned a.machine.store = unsigned b.machine.store
  height_eq : a.height = b.height
  transitionHeight_eq : a.transitionHeight = b.transitionHeight
  blocks : List.Forall₂ Block.Alike a.blocks b.blocks

variable {settings : Settings} {config : Config RoundKind} {participants : SortedSet String}

abbrev AlikeMachines (settings : Settings) (config : Config RoundKind)
    (participants : SortedSet String) (a b : OracleMachine) : Prop :=
  Machine.Alike settings.application config (Twin settings config participants) unsigned a b

theorem alike_self {current : RoundKind × Poll Kind} {taken : List (Transaction Payload)}
    {machine : OracleMachine} (h : Serving settings config participants current taken machine) :
    AlikeMachines settings config participants machine machine := by
  obtain ⟨hrunning, hsame⟩ := h
  obtain ⟨round, hcurrent, htook⟩ := hrunning.round
  have hsound : Sound settings config participants current.1 current.2 taken round :=
    ⟨htook, hrunning.allowed_eq, hrunning.params_eq, hsame, hsame ▸ hrunning.participants_eq⟩
  have htwin : Twin settings config participants round round :=
    ⟨⟨_, _, _, hsound⟩, ⟨_, _, _, hsound⟩, rfl⟩
  exact Machine.Alike.mk machine.current machine.lastStore machine.history hrunning.app_eq
    hrunning.config_eq (.inr ⟨current.1, round, round, hcurrent, hcurrent, htwin⟩) rfl rfl

theorem agree_of_alike {a b : OracleReplica}
    (hsize : participants.size ≤ config.params.maxParticipants.toNat)
    (h : Replica.Alike (AlikeMachines settings config participants) a b) : Agree a b where
  kind_eq := h.machine.currentKind_eq
  roundHeight_eq := h.machine.height_eq
  previousRounds_eq := h.machine.previousRounds_eq
  roundResults_eq := h.machine.roundResults_eq
  store_eq := h.machine.plain_store_eq (twins hsize)
  height_eq := h.height_eq
  transitionHeight_eq := h.transitionHeight_eq
  blocks := h.blocks

theorem SetUp.size_le {start : OracleReplica} (h : SetUp settings participants config start) :
    participants.size ≤ config.params.maxParticipants.toNat := by
  obtain ⟨machine, hmachine, _⟩ := h
  obtain ⟨_, _, _, _, hsize⟩ := machine_eq hmachine
  exact hsize

/-- After whole blocks the machine still asks the participants with which it was made. -/
theorem SetUp.serving_of_processAll {start replica : OracleReplica} {blocks : List Block}
    {outcomes : List (Except Error (BlockOutcome Event))}
    (h : SetUp settings participants config start)
    (hall : start.processAll blocks = .ok (outcomes, replica)) :
    Replica.Held (Serving settings config participants) replica ∧ replica.phase = .idle := by
  obtain ⟨hidle, _, current, hrunning, hsame⟩ := h.running
  have hstart : Replica.Held (Serving settings config participants) start :=
    ⟨current, [], hrunning, hsame⟩
  exact hstart.processAll (serving_tracks settings config participants) hidle hall

theorem exists_accepted {replica after : OracleReplica}
    (hheld : Replica.Held (Serving settings config participants) replica) {block : Block}
    {outcome : BlockOutcome Event} (hblock : replica.processBlock block = .ok (.ok outcome, after)) :
    ∃ accepted, after.blocks = replica.blocks ++ [⟨block.header, accepted⟩] := by
  obtain ⟨g, taken, hholds⟩ := hheld
  obtain ⟨_, _, _, accepted, _, _, _, _, _, _, _, rfl⟩ :=
    Replica.processBlock_eq_ok (serving_tracks settings config participants) hholds hblock
  exact ⟨accepted, rfl⟩

theorem perm_of_blocks {blocks : List Block} {header : BlockHeader}
    {accepted accepted' : List (List UInt8)}
    (h : List.Forall₂ Block.Alike (blocks ++ [⟨header, accepted⟩])
      (blocks ++ [⟨header, accepted'⟩])) : accepted.Perm accepted' := by
  rw [← List.forall₂_reverse_iff, List.reverse_append, List.reverse_append] at h
  cases h with
  | cons hlast _ => exact hlast.perm

/-- Both blocks overflow in the same operation, or both are processed: with the same transactions and
the same event, and so that no further blocks tell the replicas apart. -/
theorem order_is_immaterial {start replica : OracleReplica} {blocks : List Block}
    {outcomes : List (Except Error (BlockOutcome Event))}
    (hsetUp : SetUp settings participants config start)
    (hall : start.processAll blocks = .ok (outcomes, replica)) {header : BlockHeader}
    (hheight : Word.succ replica.height = .ok header.height) {first second : List (List UInt8)}
    (hperm : first.Perm second)
    (hsenders : ((first.filterMap (Replica.decoded? Payload)).map (·.sender)).Nodup) :
    Both (fun x y => ∃ rejected rejected' event accepted accepted',
        x.1 = .ok ⟨rejected, event⟩ ∧ y.1 = .ok ⟨rejected', event⟩ ∧
        x.2.blocks = replica.blocks ++ [⟨header, accepted⟩] ∧
        y.2.blocks = replica.blocks ++ [⟨header, accepted'⟩] ∧ accepted.Perm accepted' ∧
        Agree x.2 y.2 ∧
        ∀ more, Both (SameAnswer Agree) (x.2.processAll more) (y.2.processAll more))
      (replica.processBlock ⟨header, first⟩) (replica.processBlock ⟨header, second⟩) := by
  have hsize := hsetUp.size_le
  obtain ⟨hheld, hidle⟩ := hsetUp.serving_of_processAll hall
  have htracks := serving_tracks settings config participants
  have hcongruent : Machine.Congruent (AlikeMachines settings config participants) :=
    (twins hsize).congruent
  have hself : Replica.Alike (AlikeMachines settings config participants) replica replica := by
    obtain ⟨current, taken, hserving⟩ := hheld
    exact .refl (alike_self hserving)
  apply (Replica.processBlock_perm hcongruent twins_commute.orderless hself header hperm
    (Replica.pairwise_apart hsenders)).with_eq.mono
  rintro ⟨answer, x⟩ ⟨answer', y⟩ ⟨⟨houtcomes, halike⟩, hx, hy⟩
  obtain ⟨⟨rejected, event⟩, rfl⟩ := Replica.exists_outcome htracks hheld hidle hheight hx
  obtain ⟨⟨rejected', event'⟩, rfl⟩ := Replica.exists_outcome htracks hheld hidle hheight hy
  cases houtcomes with
  | ok houtcome =>
    obtain ⟨_, rfl⟩ := houtcome
    obtain ⟨accepted, haccepted⟩ := exists_accepted hheld hx
    obtain ⟨accepted', haccepted'⟩ := exists_accepted hheld hy
    have hblocks := halike.blocks
    rw [haccepted, haccepted'] at hblocks
    refine ⟨rejected, rejected', _, accepted, accepted', rfl, rfl, haccepted, haccepted',
      perm_of_blocks hblocks, agree_of_alike hsize halike, ?_⟩
    intro more
    apply (halike.processAll hcongruent more).mono
    rintro u v ⟨hanswers, hagree⟩
    exact ⟨hanswers, agree_of_alike hsize hagree⟩

/-! ## Four participants, who vote for zero -/

def voteHeader : BlockHeader := ⟨3, .ofSeconds 3⟩

def positiveFirst : List (List UInt8) :=
  [sent "a" (.estimate ⟨0⟩), sent "b" (.estimate ⟨0x8000000000000000⟩), sent "c" (.estimate ⟨0⟩)]

def negativeFirst : List (List UInt8) :=
  [sent "b" (.estimate ⟨0x8000000000000000⟩), sent "a" (.estimate ⟨0⟩), sent "c" (.estimate ⟨0⟩)]

/-- The estimates that are agreed on differ in their signs, and the replicas in nothing else. -/
theorem order_is_immaterial_for_zeros :
    ∃ start replica x y, SetUp {} fourAddresses fourConfig start ∧
      (∃ outcomes, start.processAll untilEstimates = .ok (outcomes, replica)) ∧
      replica.processBlock ⟨voteHeader, positiveFirst⟩ = .ok x ∧
      replica.processBlock ⟨voteHeader, negativeFirst⟩ = .ok y ∧
      (mostVotedEstimate x.2.machine.store).toOption = some ⟨0⟩ ∧
      (mostVotedEstimate y.2.machine.store).toOption = some ⟨0x8000000000000000⟩ ∧
      Agree x.2 y.2 := by
  have hrun : (({} : Settings).start? fourAddresses fourConfig).map (fun start =>
      (start.processAll untilEstimates).map fun (_, replica) =>
        (replica.height, [positiveFirst, negativeFirst].map fun transactions =>
          (replica.processBlock ⟨voteHeader, transactions⟩).map fun (_, after) =>
            (mostVotedEstimate after.machine.store).toOption)) =
      some (.ok (2, [.ok (some ⟨0⟩), .ok (some ⟨0x8000000000000000⟩)])) := by decide +kernel
  obtain ⟨start, ⟨outcomes, replica⟩, hsetUp, hall, hseen⟩ := exists_after hrun
  obtain ⟨hheight, hestimates⟩ := Prod.mk.inj hseen
  simp only [List.map_cons, List.map_nil, List.cons.injEq, and_true] at hestimates
  obtain ⟨x, hx, hpositive⟩ := Checked.map_eq_ok_iff.1 hestimates.1
  obtain ⟨y, hy, hnegative⟩ := Checked.map_eq_ok_iff.1 hestimates.2
  have hnext : Word.succ replica.height = .ok voteHeader.height := by
    rw [hheight]
    rfl
  have hperm : positiveFirst.Perm negativeFirst := List.Perm.swap _ _ _
  have hboth := order_is_immaterial hsetUp hall hnext hperm (by decide +kernel)
  rw [hx, hy] at hboth
  cases hboth with
  | ok hagree =>
    obtain ⟨_, _, _, _, _, _, _, _, _, _, hagree, _⟩ := hagree
    exact ⟨start, replica, x, y, hsetUp, ⟨outcomes, hall⟩, hx, hy, hpositive, hnegative, hagree⟩

end QuorumRounds.PriceOracle
