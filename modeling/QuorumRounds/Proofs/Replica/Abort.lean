import QuorumRounds.Proofs.Replica.Invariant

/-! # Blocks that are begun and not committed

`Replica.attempt` begins a block, delivers its transactions one by one, and maybe ends it. Aborting it
then gives back the point of the block, the height and the log. The machine is not given back: its
round keeps what it has taken (`attempt_eq_ok`).

Refused transactions leave nothing behind, and neither does a timestamp that is only recorded: the
next block overwrites it (`processBlock_of_stamped`). -/

namespace QuorumRounds.Replica
set_option autoImplicit false

variable {ρ ε κ σ P γ : Type} [Ord ρ] [Ord ε] [Ord κ] [RoundBehavior σ P ε] [Wire P]
  {holds : γ → List (Transaction P) → Machine ρ ε κ σ → Prop} {g : γ}
  {taken : List (Transaction P)} {replica begun delivered after : Replica ρ ε κ σ} {block : Block}
  {header : BlockHeader} {transactions : List (List UInt8)}

/-- Whatever the deliveries answer. -/
def attempt (replica : Replica ρ ε κ σ) (header : BlockHeader) (transactions : List (List UInt8))
    (ended : Bool) : Checked (Replica ρ ε κ σ) := do
  let begun ← replica.call (.beginBlock header)
  let delivered ← begun.run (transactions.map .deliverTx)
  if ended then delivered.call .endBlock else pure delivered

/-- The round takes the accepted transactions; without any of them the machine does not change. -/
theorem run_deliverTx_eq_ok (htracks : Machine.Tracks holds)
    (hphase : begun.phase = .delivering block) (hholds : holds g taken begun.machine)
    (h : begun.run (transactions.map .deliverTx) = .ok delivered) :
    ∃ accepted machine, holds g (taken ++ accepted.filterMap (decoded? P)) machine ∧
      (∀ bytes ∈ accepted, ∃ tx, decoded? P bytes = some tx) ∧
      (accepted = [] → machine = begun.machine) ∧
      delivered = { begun with
        machine := machine
        phase := .delivering ⟨block.header, block.transactions ++ accepted⟩ } := by
  induction transactions generalizing begun taken block with
  | nil =>
    obtain rfl := Except.ok.inj h
    refine ⟨[], begun.machine, by simpa using hholds, by simp, fun _ => rfl, ?_⟩
    rw [List.append_nil, ← hphase]
  | cons bytes rest ih =>
    rw [List.map_cons, run, List.foldlM_cons] at h
    obtain ⟨next, hcall, hrest⟩ := Checked.bind_eq_ok_iff.1 h
    obtain ⟨⟨answer, next⟩, hdeliver, rfl⟩ := Checked.map_eq_ok_iff.1 hcall
    cases answer with
    | error e =>
      obtain rfl := (deliverTx_eq_error htracks hholds hdeliver).1
      exact ih hphase hholds hrest
    | ok _ =>
      obtain ⟨block', tx, machine, hphase', hdecoded, hcheck, hprocess, rfl⟩ :=
        deliverTx_eq_ok hdeliver
      rw [hphase] at hphase'
      cases hphase'
      obtain ⟨_, hnext⟩ := htracks.processTransaction hholds hcheck hprocess
      obtain ⟨accepted, last, hlast, hall, _, rfl⟩ := ih rfl hnext hrest
      refine ⟨bytes :: accepted, last, ?_, ?_, fun hnil => ?_, ?_⟩
      · rw [List.filterMap_cons_some hdecoded]
        simpa using hlast
      · intro other hother
        rcases List.mem_cons.1 hother with rfl | hmem
        · exact ⟨tx, hdecoded⟩
        · exact hall other hmem
      · cases hnil
      · simp

theorem attempt_eq_ok {ended : Bool} (htracks : Machine.Tracks holds)
    (hholds : holds g taken replica.machine) (hidle : replica.phase = .idle)
    (hheight : Word.succ replica.height = .ok header.height)
    (h : replica.attempt header transactions ended = .ok after) :
    ∃ fired timed next accepted delivered,
      replica.machine.updateTime header.timestamp = .ok (.ok fired, timed) ∧
      holds next (Machine.remaining fired taken ++ accepted.filterMap (decoded? P)) delivered ∧
      (∀ bytes ∈ accepted, ∃ tx, decoded? P bytes = some tx) ∧
      (accepted = [] → delivered = timed) ∧
      (ended = false → after.machine = delivered ∧ (fired = none →
        after.transitionHeight = replica.transitionHeight)) ∧
      (ended = true → ∃ event, delivered.endBlock = .ok (.ok event, after.machine)) ∧
      after.phase =
        (if ended then .ended ⟨header, accepted⟩ else .delivering ⟨header, accepted⟩) ∧
      after.abort = { replica with
        machine := after.machine
        transitionHeight := after.transitionHeight } := by
  obtain ⟨begun, hbegun, hrest⟩ := Checked.bind_eq_ok_iff.1 h
  obtain ⟨last, hlast, hend⟩ := Checked.bind_eq_ok_iff.1 hrest
  obtain ⟨⟨answer, begun⟩, hbegin, rfl⟩ := Checked.map_eq_ok_iff.1 hbegun
  cases answer with
  | error e =>
    rcases beginBlock_refusal htracks ⟨g, taken, hholds⟩ hbegin with ⟨hphase, _⟩ | ⟨_, hnext, _⟩
    · exact absurd hidle hphase
    · exact absurd hheight hnext
  | ok _ =>
    obtain ⟨_, _, fired, timed, htime, rfl⟩ := beginBlock_eq_ok hbegin
    obtain ⟨event, hanswer, hpasses⟩ := htracks.updateTime hholds htime
    obtain rfl := Except.ok.inj hanswer
    obtain ⟨next, hnext⟩ := hpasses.exists_holds
    obtain ⟨accepted, delivered, hdelivered, hall, hnone, rfl⟩ :=
      run_deliverTx_eq_ok htracks rfl hnext hlast
    refine ⟨fired, timed, next, accepted, delivered, htime, hdelivered, hall, hnone, ?_⟩
    cases ended with
    | false =>
      cases hend
      refine ⟨fun _ => ⟨rfl, ?_⟩, fun hf => (by cases hf), rfl, by rw [abort, hidle]⟩
      rintro rfl
      rfl
    | true =>
      obtain ⟨⟨answer, ended⟩, hended, rfl⟩ := Checked.map_eq_ok_iff.1 hend
      cases answer with
      | error e =>
        exact absurd rfl ((endBlock_eq_error htracks hdelivered hended).1 _)
      | ok event =>
        obtain ⟨_, machine, height, hphase, hmachine, rfl⟩ := endBlock_eq_ok hended
        cases hphase
        exact ⟨fun hf => (by cases hf), fun _ => ⟨event, hmachine⟩, rfl, by rw [abort, hidle]⟩

/-- A block begins with its own timestamp, whatever the last one was. -/
theorem processBlock_of_stamped (hidle : replica.phase = .idle)
    (hheight : Word.succ replica.height = .ok block.header.height) (last : Option Duration) :
    processBlock { replica with machine := { replica.machine with lastTimestamp := last } } block =
      replica.processBlock block := by
  have hbegin : beginBlock { replica with
      machine := { replica.machine with lastTimestamp := last } } block.header =
      replica.beginBlock block.header := by
    simp only [beginBlock, hidle, hheight, Checked.ok_bind, if_true]
    rfl
  rw [processBlock, processBlock, hbegin]

end QuorumRounds.Replica
