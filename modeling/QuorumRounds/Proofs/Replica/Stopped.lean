import QuorumRounds.Proofs.Machine.Stopped
import QuorumRounds.Proofs.PriceOracle.Running
import QuorumRounds.Proofs.Replica.Runs

/-! # Replicas of a machine that has stopped

The chain goes on without the machine: a replica whose machine has stopped commits every block that
comes next, empty, and says of each of its transactions why it is left out (`refusal`). -/

namespace QuorumRounds.Replica
set_option autoImplicit false

variable {ρ ε κ σ P : Type} [Ord ρ] [Ord ε] [Ord κ] {replica : Replica ρ ε κ σ} {block : Block}

/-! ## Empty blocks -/

/-- The replica after a block that it has committed without its transactions. -/
def skip (replica : Replica ρ ε κ σ) (block : Block) : Replica ρ ε κ σ :=
  { machine := replica.machine.stamp block.header.timestamp
    phase := .idle
    height := block.header.height
    blocks := replica.blocks ++ [⟨block.header, []⟩]
    transitionHeight := replica.transitionHeight }

/-- The timestamps of skipped blocks are all that the machine sees of them. -/
def sightings (ε P : Type) (blocks : List Block) : List (Machine.Call ε P) :=
  blocks.map fun block => .updateTime block.header.timestamp

theorem machine_foldl_skip (replica : Replica ρ ε κ σ) (blocks : List Block) :
    (blocks.foldl skip replica).machine =
      (sightings ε P blocks).foldl Machine.Call.onStopped replica.machine := by
  induction blocks generalizing replica with
  | nil => rfl
  | cons block rest ih => exact ih (replica.skip block)

theorem phase_foldl_skip (hphase : replica.phase = .idle) (blocks : List Block) :
    (blocks.foldl skip replica).phase = .idle := by
  induction blocks generalizing replica with
  | nil => exact hphase
  | cons block rest ih => exact ih rfl

theorem blocks_foldl_skip (replica : Replica ρ ε κ σ) (blocks : List Block) :
    (blocks.foldl skip replica).blocks =
      replica.blocks ++ blocks.map fun block => ⟨block.header, []⟩ := by
  induction blocks generalizing replica with
  | nil => exact (List.append_nil _).symm
  | cons block rest ih =>
    rw [List.foldl_cons, ih, skip, List.map_cons, List.append_assoc]
    rfl

theorem transitionHeight_foldl_skip (replica : Replica ρ ε κ σ) (blocks : List Block) :
    (blocks.foldl skip replica).transitionHeight = replica.transitionHeight := by
  induction blocks generalizing replica with
  | nil => rfl
  | cons block rest ih => exact ih (replica.skip block)

/-- Heights that follow the last one. -/
def Continue (height : UInt64) (blocks : List Block) : Prop :=
  blocks.map (·.header.height.toNat) = List.range' (height.toNat + 1) blocks.length

theorem Continue.cons {height : UInt64} {rest : List Block} (h : Continue height (block :: rest)) :
    Word.succ height = .ok block.header.height ∧ Continue block.header.height rest := by
  rw [Continue, List.map_cons, List.length_cons, List.range'_succ] at h
  obtain ⟨hfirst, hrest⟩ := List.cons_eq_cons.1 h
  exact ⟨Word.succ_eq_ok_iff.2 hfirst, by rw [Continue, hrest, hfirst]⟩

theorem height_foldl_skip {blocks : List Block} (h : Continue replica.height blocks) :
    (blocks.foldl skip replica).height.toNat = replica.height.toNat + blocks.length := by
  induction blocks generalizing replica with
  | nil => rfl
  | cons block rest ih =>
    obtain ⟨hnext, hrest⟩ := h.cons
    have hheight := Word.succ_eq_ok_iff.1 hnext
    rw [List.foldl_cons, ih hrest, List.length_cons]
    change block.header.height.toNat + _ = _
    omega

/-! ## Transactions that are left out -/

section Refusals
variable [Wire P]

/-- Why a transaction is left out when no round is active. -/
def refusal (P : Type) [Wire P] (bytes : List UInt8) : Error :=
  match (Wire.read : Reader (Transaction P)).run bytes with
  | .error cause => .encoding cause
  | .ok _ => .internal .noActiveRound

def refusals (P : Type) [Wire P] (transactions : List (List UInt8)) (index : Nat) :
    List (Nat × Error) :=
  (transactions.zipIdx index).map fun entry => (entry.2, refusal P entry.1)

theorem isRejection_refusal (bytes : List UInt8) : isRejection (refusal P bytes) = true := by
  rw [refusal]
  split <;> rfl

end Refusals

/-! ## Blocks on a machine that has stopped -/

section Rounds
variable [RoundBehavior σ P ε] [Wire P]

theorem deliverTx_of_stopped (h : replica.machine.Stopped) (hphase : replica.phase = .delivering block)
    (bytes : List UInt8) : replica.deliverTx bytes = .ok (.error (refusal P bytes), replica) := by
  simp only [deliverTx, hphase, refusal, Wire.decode]
  cases (Wire.read : Reader (Transaction P)).run bytes with
  | error cause => rfl
  | ok out =>
    simp only [h.checkTransaction]
    rfl

theorem deliverAll_of_stopped (h : replica.machine.Stopped)
    (hphase : replica.phase = .delivering block) (transactions : List (List UInt8)) (index : Nat) :
    replica.deliverAll index transactions = .ok (.ok (refusals P transactions index), replica) := by
  induction transactions generalizing index with
  | nil => rfl
  | cons bytes rest ih =>
    rw [deliverAll, deliverTx_of_stopped h hphase, Checked.ok_bind]
    simp only [isRejection_refusal, if_true, ih, Checked.ok_bind, Checked.pure_eq_ok]
    rfl

theorem runBlock_of_stopped (h : replica.machine.Stopped) (hphase : replica.phase = .delivering block)
    (transactions : List (List UInt8)) :
    replica.runBlock transactions = .ok (.ok ⟨refusals P transactions 0, none⟩, { replica with
      phase := .idle
      height := block.header.height
      blocks := replica.blocks ++ [block] }) := by
  have hend : replica.endBlock = .ok (.ok none, { replica with phase := .ended block }) := by
    simp only [endBlock, hphase, h.endBlock]
    rfl
  rw [runBlock, deliverAll_of_stopped h hphase, Checked.ok_bind]
  simp only [hend, Checked.ok_bind, commit]
  rfl

theorem processBlock_of_stopped (h : replica.machine.Stopped) (hphase : replica.phase = .idle)
    (hheight : Word.succ replica.height = .ok block.header.height) :
    replica.processBlock block =
      .ok (.ok ⟨refusals P block.transactions 0, none⟩, replica.skip block) := by
  obtain ⟨begun, hbegun⟩ : ∃ begun, begun = { replica with
      machine := replica.machine.stamp block.header.timestamp
      phase := .delivering ⟨block.header, []⟩ } := ⟨_, rfl⟩
  have hbegin : replica.beginBlock block.header = .ok (.ok (), begun) := by
    simp only [beginBlock, hphase, hheight, Checked.ok_bind, if_true, h.updateTime, hbegun]
    rfl
  have hstopped : begun.machine.Stopped := hbegun ▸ h.stamp block.header.timestamp
  have hdelivering : begun.phase = .delivering ⟨block.header, []⟩ := by rw [hbegun]
  rw [processBlock, hbegin, Checked.ok_bind]
  simp only [runBlock_of_stopped hstopped hdelivering, Checked.ok_bind]
  rw [hbegun]
  rfl

theorem processAll_of_stopped {blocks : List Block} (h : replica.machine.Stopped)
    (hphase : replica.phase = .idle) (hblocks : Continue replica.height blocks) :
    replica.processAll blocks =
      .ok (blocks.map fun block => .ok ⟨refusals P block.transactions 0, none⟩,
        blocks.foldl skip replica) := by
  induction blocks generalizing replica with
  | nil => rfl
  | cons block rest ih =>
    obtain ⟨hnext, hrest⟩ := hblocks.cons
    have hskipped : (replica.skip block).processAll rest = _ := ih (h.stamp _) rfl hrest
    rw [processAll, processBlock_of_stopped h hphase hnext, Checked.ok_bind]
    simp only [hskipped, Checked.ok_bind]
    rfl

/-! ## A machine that has stopped stays so -/

/-- Once a round has ended on an event without an edge, nothing happens any more until the next
setup, whatever is called, and a replica goes on committing blocks without their transactions. Every
event of a final round is such an event, and no timeout is pending in a final round. -/
theorem stopped_machines_are_inert [Named ρ] [Std.LawfulEqOrd ε] {app : Application ρ ε κ σ}
    {setup : SortedMap String Value} {config : Config ρ} {registry : Registry κ}
    {start : Machine ρ ε κ σ}
    (hstart : Machine.ofApplication app setup config registry = .ok start) :
    (∀ kind ∈ app.finals.toList, (∀ event, app.transitions.next? kind event = none) ∧
      ∀ machine round, Machine.Reachable start machine → machine.current = some (kind, round) →
        machine.timeouts = ∅) ∧
    ∀ machine event stopped, Machine.Reachable start machine →
      Machine.StopsOn machine event stopped →
      ∀ calls : List (Machine.Call ε P), (∀ call ∈ calls, call ≠ .setup) →
        ∃ after, stopped.run calls = .ok after ∧ Machine.Inert stopped calls after ∧
          ∀ (replica : Replica ρ ε κ σ) (blocks : List Block), replica.machine = after →
            replica.phase = .idle →
            Continue replica.height blocks →
            ∃ last, replica.processAll blocks =
                .ok (blocks.map fun block => .ok ⟨refusals P block.transactions 0, none⟩, last) ∧
              last.phase = .idle ∧
              last.height.toNat = replica.height.toNat + blocks.length ∧
              last.blocks = replica.blocks ++ blocks.map (fun block => ⟨block.header, []⟩) ∧
              last.transitionHeight = replica.transitionHeight ∧
              stopped.run (calls ++ sightings ε P blocks) = .ok last.machine ∧
              Machine.Inert stopped (calls ++ sightings ε P blocks) last.machine := by
  constructor
  · intro kind hkind
    have hevents := Machine.eventsFrom_of_final hstart hkind
    constructor
    · intro event
      rw [Option.eq_none_iff_forall_not_mem]
      intro next hnext
      have hmem := TransitionTable.mem_eventsFrom.2 ⟨next, hnext⟩
      rw [hevents] at hmem
      cases hmem
    · intro machine round hmachine hcurrent
      exact (Machine.Pends.of_reachable hstart hmachine).timeouts_of_final hevents hcurrent
  · intro machine event stopped _ hstops calls hcalls
    have hstopped := hstops.stopped
    refine ⟨_, hstopped.run hcalls, hstopped.inert calls, ?_⟩
    intro replica blocks hmachine hphase hblocks
    have hnow : replica.machine.Stopped := hmachine ▸ hstopped.foldl calls
    have hlast : (blocks.foldl skip replica).machine = _ := machine_foldl_skip (P := P) replica blocks
    rw [hmachine, ← List.foldl_append] at hlast
    refine ⟨_, processAll_of_stopped hnow hphase hblocks, phase_foldl_skip hphase blocks,
      height_foldl_skip hblocks, blocks_foldl_skip replica blocks,
      transitionHeight_foldl_skip replica blocks, ?_⟩
    rw [hlast]
    refine ⟨hstopped.run ?_, hstopped.inert _⟩
    intro call hcall
    rcases List.mem_append.1 hcall with hearlier | hseen
    · exact hcalls call hearlier
    · obtain ⟨block, _, rfl⟩ := List.mem_map.1 hseen
      nofun

end Rounds

section OneShot
open PriceOracle

/-- Registration only: once everyone has registered, the round that follows is final. -/
def oneShot : Application RoundKind Event Kind Round :=
  { ({} : Settings).application with
    finals := .singleton .collectObservation
    transitions := .ofList [(.registration, .done, .collectObservation)] }

def oneShotMachine? : Option OracleMachine :=
  match registry with
  | .error _ => none
  | .ok shapes =>
    (Machine.ofApplication oneShot (Settings.setupData fourAddresses.toList) fourConfig
      shapes).toOption

theorem ofApplication_of_oneShotMachine? {machine : OracleMachine}
    (h : oneShotMachine? = some machine) :
    ∃ shapes, Machine.ofApplication oneShot (Settings.setupData fourAddresses.toList) fourConfig
      shapes = .ok machine := by
  rw [oneShotMachine?] at h
  split at h
  case h_1 => cases h
  case h_2 shapes _ => exact ⟨shapes, Checked.eq_ok_of_toOption h⟩

/-- A block with nothing that can be read, and with the registration of a participant. -/
def lateBlock : Block := ⟨⟨1, .ofSeconds 6⟩, [[], sent "a" .registration]⟩

theorem stopped_machines_are_inert_after_one_shot :
    ∃ (start final stopped after : OracleMachine) (last : OracleReplica),
      oneShotMachine? = some start ∧ Machine.Reachable start final ∧
      final.currentKind = some .collectObservation ∧ final.timeouts = ∅ ∧
      Machine.StopsOn final .done stopped ∧
      stopped.run [.updateTime (.ofSeconds 5), .cleanup 1] = .ok after ∧
      after.height = 1 ∧ after.previousRounds = [.collectObservation] ∧
      (Replica.ofMachine after).processAll [lateBlock] =
        .ok ([.ok ⟨[(0, .encoding .endOfInput), (1, .internal .noActiveRound)], none⟩], last) ∧
      last.blocks = [⟨lateBlock.header, []⟩] := by
  have hrun : oneShotMachine?.map (fun start =>
      (start.run registeringCalls).map fun final =>
        (final.currentKind, (final.processEvent .done none).map fun (_, stopped) =>
          (stopped.height, stopped.previousRounds))) =
      some (.ok (some .collectObservation, .ok (1, [.registration, .collectObservation]))) := by
    decide +kernel
  obtain ⟨start, final, hnew, hfinal, hseen⟩ := Checked.exists_of_map hrun
  obtain ⟨hkind, hleft⟩ := Prod.mk.inj hseen
  obtain ⟨⟨_, stopped⟩, hstopped, heq⟩ := Checked.map_eq_ok_iff.1 hleft
  obtain ⟨hheight, hrounds⟩ := Prod.mk.inj heq
  obtain ⟨shapes, hstart⟩ := ofApplication_of_oneShotMachine? hnew
  have hreachable : Machine.Reachable start final := Machine.Reachable.start.run hfinal
  obtain ⟨⟨kind, round⟩, hcurrent, rfl⟩ := Option.map_eq_some_iff.1 hkind
  have hfinal : RoundKind.collectObservation ∈ oneShot.finals.toList := by decide
  obtain ⟨hedges, hnothing⟩ := (stopped_machines_are_inert hstart).1 _ hfinal
  have hedge : final.app.transitions.next? .collectObservation .done = none := by
    rw [(Machine.Pends.of_reachable hstart hreachable).app_eq]
    exact hedges .done
  have hstops : Machine.StopsOn final .done stopped := .processed hcurrent hedge hstopped
  obtain ⟨after, hafter, hinert, hblocks⟩ := (stopped_machines_are_inert hstart).2 final .done stopped
    hreachable hstops [.updateTime (.ofSeconds 5), .cleanup 1] (by simp)
  obtain ⟨last, hlast, _, _, hcommitted, _⟩ :=
    hblocks (Replica.ofMachine after) [lateBlock] rfl rfl rfl
  have hremembered : after.previousRounds = lastItems 1 stopped.previousRounds := by
    rw [Machine.previousRounds, hinert.history_eq, Machine.previousRounds, lastItems, List.length_map,
      ← List.map_drop]
    rfl
  have hrefusals : refusals PriceOracle.Payload lateBlock.transactions 0 =
      [(0, .encoding .endOfInput), (1, .internal .noActiveRound)] := by decide +kernel
  rw [List.map_singleton, hrefusals] at hlast
  refine ⟨start, final, stopped, after, last, hnew, hreachable, hkind, hnothing final round hreachable
    hcurrent, hstops, hafter, hinert.height_eq.trans hheight, ?_, hlast, hcommitted⟩
  rw [hremembered, hrounds]
  rfl

end OneShot

end QuorumRounds.Replica
