import QuorumRounds.Proofs.PriceOracle.Running
import QuorumRounds.Proofs.Replica.Abort

/-! # What an aborted block leaves behind

A block that is aborted is not in the log, and its height can be started again. The machine, though,
is left as the block has made it: the round keeps every accepted transaction, so that none of them is
accepted a second time (`aborted_block_stays_in_machine`). Started again with the same transactions,
the block ends up in the log without them (`aborted_registration_is_lost`). -/

namespace QuorumRounds.PriceOracle
set_option autoImplicit false

theorem aborted_block_stays_in_machine {settings : Settings} {participants : SortedSet String}
    {config : Config RoundKind} {start replica after : OracleReplica} {calls : List Replica.Call}
    {header : BlockHeader} {transactions : List (List UInt8)} {ended : Bool}
    (hsetUp : SetUp settings participants config start) (hrun : start.run calls = .ok replica)
    (hidle : replica.phase = .idle) (hheight : Word.succ replica.height = .ok header.height)
    (hattempt : replica.attempt header transactions ended = .ok after) :
    ∃ fired timed current taken accepted delivered,
      replica.machine.updateTime header.timestamp = .ok (.ok fired, timed) ∧
      after.phase =
        (if ended then .ended ⟨header, accepted⟩ else .delivering ⟨header, accepted⟩) ∧
      Running settings config current (taken ++ accepted.filterMap (Replica.decoded? Payload))
        delivered ∧
      after.abort = { replica with
        machine := after.machine
        transitionHeight := after.transitionHeight } ∧
      (ended = true → ∃ event, delivered.endBlock = .ok (.ok event, after.machine)) ∧
      (ended = false → after.machine = delivered ∧
        ∀ bytes ∈ accepted, ∃ e, after.abort.checkTx bytes = .ok (.error e)) ∧
      (ended = false → accepted = [] → fired = none → replica.machine.awaitsTime = false →
        ∀ block, Word.succ replica.height = .ok block.header.height →
          after.abort.processBlock block = replica.processBlock block) := by
  obtain ⟨_, _, first, hfirst, _⟩ := hsetUp.running
  have htracks := tracks settings config
  have hstart : Replica.Held (Running settings config) start := ⟨first, [], hfirst⟩
  obtain ⟨g, taken, hholds⟩ := hstart.run htracks hrun
  obtain ⟨fired, timed, next, accepted, delivered, htime, hdelivered, hdecoded, hnone, hopen, hended,
    hphase, habort⟩ := Replica.attempt_eq_ok htracks hholds hidle hheight hattempt
  refine ⟨fired, timed, next, _, accepted, delivered, htime, hphase, hdelivered, habort, hended,
    ?_, ?_⟩
  · intro hfalse
    refine ⟨(hopen hfalse).1, ?_⟩
    intro bytes hbytes
    obtain ⟨tx, htx⟩ := hdecoded bytes hbytes
    obtain ⟨round, hcurrent, htook⟩ := hdelivered.round
    have hmem : tx ∈ accepted.filterMap (Replica.decoded? Payload) :=
      List.mem_filterMap.2 ⟨bytes, hbytes, htx⟩
    obtain ⟨reason, hreason⟩ := htook.check_of_sent
      (List.mem_map.2 ⟨tx, List.mem_append_right _ hmem, rfl⟩)
    have hcheck : RoundBehavior.check round tx = .ok (.error reason) := hreason
    refine ⟨.invalidTransaction reason, ?_⟩
    simp only [habort, Replica.checkTx, Replica.decode_of_decoded? htx, (hopen hfalse).1,
      Machine.checkTransaction, hcurrent, hcheck, Checked.ok_bind]
    rfl
  · rintro hfalse rfl rfl hawaits block hblock
    obtain ⟨hmachine, htransition⟩ := hopen hfalse
    rw [habort, hmachine, hnone rfl, htransition rfl, Machine.updateTime_eq_none hawaits htime]
    exact Replica.processBlock_of_stamped hidle hblock _

/-- All four register, and other bytes are refused. After the block has been aborted, the registrations
are refused as well. -/
theorem aborted_block_stays_in_machine_of_four :
    ∃ start after accepted, SetUp {} fourAddresses fourConfig start ∧
      accepted = ["a", "b", "c", "d"].map (sent · .registration) ∧
      start.attempt ⟨1, .ofSeconds 5⟩ (accepted ++ [[1]]) false = .ok after ∧
      after.phase = .delivering ⟨⟨1, .ofSeconds 5⟩, accepted⟩ ∧
      after.abort.height = start.height ∧ after.abort.blocks = start.blocks ∧
      ∀ bytes ∈ accepted, ∃ e, after.abort.checkTx bytes = .ok (.error e) := by
  have hrun : (({} : Settings).start? fourAddresses fourConfig).map (fun start =>
      (start.attempt ⟨1, .ofSeconds 5⟩
        (["a", "b", "c", "d"].map (sent · .registration) ++ [[1]]) false).map (·.phase)) =
      some (.ok (.delivering
        ⟨⟨1, .ofSeconds 5⟩, ["a", "b", "c", "d"].map (sent · .registration)⟩)) := by
    decide +kernel
  obtain ⟨start, after, hsetUp, hattempt, hphase⟩ := exists_after hrun
  have hnew := hsetUp.eq_ofMachine
  have hidle : start.phase = .idle := by rw [hnew, Replica.ofMachine]
  have hnext : Word.succ start.height = .ok 1 := by
    rw [hnew, Replica.ofMachine]
    rfl
  have hnone : start.run [] = .ok start := rfl
  obtain ⟨_, _, _, _, accepted, _, _, hphase', _, habort, _, hopen, _⟩ :=
    aborted_block_stays_in_machine hsetUp hnone hidle hnext hattempt
  rw [hphase] at hphase'
  cases hphase'
  exact ⟨start, after, _, hsetUp, rfl, hattempt, hphase, by rw [habort], by rw [habort],
    (hopen rfl).2⟩

/-! ## A registration that is lost -/

def blockWithA : Block := ⟨⟨1, .ofSeconds 5⟩, [registrationOfA]⟩

/-- The transactions that were left out. -/
def leftOut (answer : Except Error (BlockOutcome Event)) : Option (List Nat) :=
  answer.toOption.map fun outcome => outcome.rejected.map (·.1)

/-- Directly, the block commits the registration. After it has been begun, given the same registration
and aborted, it commits nothing and the registration is rejected. -/
theorem aborted_registration_is_lost :
    ∃ start after, SetUp {} alone aloneConfig start ∧
      start.attempt blockWithA.header blockWithA.transactions false = .ok after ∧
      (∃ answer direct, start.processBlock blockWithA = .ok (answer, direct) ∧
        leftOut answer = some [] ∧ direct.blocks = [blockWithA]) ∧
      ∃ answer again, after.abort.processBlock blockWithA = .ok (answer, again) ∧
        leftOut answer = some [0] ∧ again.blocks = [⟨blockWithA.header, []⟩] := by
  have hdirect : (({} : Settings).start? alone aloneConfig).map (fun start =>
      (start.processBlock blockWithA).map fun (answer, direct) => (leftOut answer, direct.blocks)) =
      some (.ok (some [], [blockWithA])) := by decide +kernel
  have hagain : (({} : Settings).start? alone aloneConfig).map (fun start =>
      (start.attempt blockWithA.header blockWithA.transactions false).map fun after =>
        (after.abort.processBlock blockWithA).map fun (answer, again) =>
          (leftOut answer, again.blocks)) =
      some (.ok (.ok (some [0], [⟨blockWithA.header, []⟩]))) := by decide +kernel
  obtain ⟨start, ⟨answer, direct⟩, hsetUp, hblock, hcommitted⟩ := exists_after hdirect
  obtain ⟨_, after, hsame, hattempt, hlost⟩ := exists_after hagain
  obtain rfl := hsetUp.unique hsame
  obtain ⟨⟨answer', again⟩, hblock', hempty⟩ := Checked.map_eq_ok_iff.1 hlost
  exact ⟨start, after, hsetUp, hattempt, ⟨answer, direct, hblock, Prod.mk.inj hcommitted⟩, answer',
    again, hblock', Prod.mk.inj hempty⟩

end QuorumRounds.PriceOracle
