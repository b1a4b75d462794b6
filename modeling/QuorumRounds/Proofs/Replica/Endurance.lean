import QuorumRounds.Proofs.Replica.Numbered

/-! # Runs in which nothing overflows

`Machine.Endures admits sum holds` says that no step of a machine overflows while `holds k machine` and
the word after `k` exists. Here `k` counts the timestamps, which are all admitted, and the ends of
blocks, since only these raise heights, periods and confirmations, and each of them by one.

A replica is within its budget (`Within holds k`) when its machine is and its heights are at most `k`.
Serving a demand spends two at most (`Within.serve`), so a run has a result if its length leaves room
for the numbers of its timeouts (`Within.run`). -/

namespace QuorumRounds
set_option autoImplicit false

variable {ρ ε κ σ P : Type} [Ord ρ] [Ord ε] [Ord κ] [RoundBehavior σ P ε]

structure Machine.Endures (admits : Duration → Prop) (sum : σ → Checked UInt64)
    (holds : Nat → Machine ρ ε κ σ → Prop) : Prop where
  grow : ∀ {k machine}, holds k machine → holds (k + 1) machine
  few : ∀ {k machine}, holds k machine → ∀ kind, (machine.app.timeoutEvents kind).length ≤ 1
  exists_sum : ∀ {k machine}, holds k machine → ∃ total, Numbered.sumOf sum machine = .ok total
  exists_setup : ∀ {k machine}, holds k machine →
    ∃ answer after, machine.setup = .ok (answer, after)
  setup : ∀ {k machine answer after}, holds k machine → machine.setup = .ok (answer, after) →
    holds k after
  exists_updateTime : ∀ {k machine now}, holds k machine → k + 1 < UInt64.size → admits now →
    ∃ answer after, machine.updateTime now = .ok (answer, after)
  updateTime : ∀ {k machine now answer after}, holds k machine → admits now →
    machine.updateTime now = .ok (answer, after) → holds (k + 1) after
  exists_check : ∀ {k machine}, holds k machine → k + 1 < UInt64.size →
    ∀ tx, ∃ answer, machine.checkTransaction tx = .ok answer
  exists_process : ∀ {k machine}, holds k machine → k + 1 < UInt64.size →
    ∀ tx, ∃ answer after, machine.processTransaction tx = .ok (answer, after)
  process : ∀ {k machine tx answer after}, holds k machine →
    machine.checkTransaction tx = .ok (.ok ()) →
    machine.processTransaction tx = .ok (answer, after) → holds k after
  exists_endBlock : ∀ {k machine}, holds k machine → k + 1 < UInt64.size →
    ∃ answer after, machine.endBlock = .ok (answer, after)
  endBlock : ∀ {k machine answer after}, holds k machine →
    machine.endBlock = .ok (answer, after) → holds (k + 1) after

variable {admits : Duration → Prop} {sum : σ → Checked UInt64}
  {holds : Nat → Machine ρ ε κ σ → Prop} {k : Nat}

namespace Replica
variable {replica after : Replica ρ ε κ σ}

structure Within (holds : Nat → Machine ρ ε κ σ → Prop) (k : Nat) (replica : Replica ρ ε κ σ) :
    Prop where
  machine : holds k replica.machine
  height_le : replica.height.toNat ≤ k
  block_le : ∀ block, replica.phase.block? = some block → block.header.height.toNat ≤ k

namespace Within

theorem grow (hendures : Machine.Endures admits sum holds) (h : Within holds k replica) :
    Within holds (k + 1) replica where
  machine := hendures.grow h.machine
  height_le := Nat.le_succ_of_le h.height_le
  block_le := fun block hblock => Nat.le_succ_of_le (h.block_le block hblock)

omit [RoundBehavior σ P ε] in
theorem moved (h : Within holds k replica) {machine : Machine ρ ε κ σ} (hmachine : holds k machine)
    {phase : Phase} (hphase : ∀ block, phase.block? = some block → block.header.height.toNat ≤ k)
    (transitionHeight : UInt64) : Within holds k { replica with
      machine := machine, phase := phase, transitionHeight := transitionHeight } :=
  ⟨hmachine, h.height_le, hphase⟩

omit [RoundBehavior σ P ε] in
theorem abort (h : Within holds k replica) : Within holds k replica.abort :=
  ⟨h.machine, h.height_le, nofun⟩

omit [RoundBehavior σ P ε] in
theorem commit (h : Within holds k replica) :
    ∃ answer after, replica.commit = .ok (answer, after) ∧ Within holds k after := by
  cases hphase : replica.phase with
  | ended block =>
    refine ⟨.ok (), { replica with
        phase := .idle
        height := block.header.height
        blocks := replica.blocks ++ [block] }, ?_, h.machine, ?_, nofun⟩
    · simp only [Replica.commit, hphase]
    · exact h.block_le block (by rw [hphase]; rfl)
  | idle | delivering block =>
    exact ⟨_, replica, by simp only [Replica.commit, hphase]; rfl, h⟩

theorem setup (hendures : Machine.Endures admits sum holds) (h : Within holds k replica) :
    ∃ answer after, replica.setup = .ok (answer, after) ∧
      replica.machine.setup = .ok (answer, after.machine) ∧ Within holds k after := by
  obtain ⟨answer, machine, hsetup⟩ := hendures.exists_setup h.machine
  refine ⟨answer, { replica with machine := machine }, ?_, hsetup, ?_⟩
  · rw [Replica.setup, hsetup]
    rfl
  · exact ⟨hendures.setup h.machine hsetup, h.height_le, h.block_le⟩

/-! ## Timestamps -/

theorem exists_beginBlock (hendures : Machine.Endures admits sum holds) (h : Within holds k replica)
    (hk : k + 1 < UInt64.size) {header : BlockHeader} (hadmits : admits header.timestamp) :
    ∃ answer after, replica.beginBlock header = .ok (answer, after) := by
  cases hphase : replica.phase with
  | idle =>
    have hheight := h.height_le
    obtain ⟨next, hnext⟩ := Word.exists_succ (a := replica.height) (by omega)
    by_cases hfollows : header.height = next
    · obtain ⟨fired, machine, htime⟩ := hendures.exists_updateTime h.machine hk hadmits
      cases fired with
      | error e =>
        exact ⟨.error e, _, by
          simp only [beginBlock, hphase, hnext, Checked.ok_bind, if_pos hfollows, htime]; rfl⟩
      | ok event =>
        exact ⟨.ok (), _, by
          simp only [beginBlock, hphase, hnext, Checked.ok_bind, if_pos hfollows, htime]; rfl⟩
    · exact ⟨_, replica, by
        simp only [beginBlock, hphase, hnext, Checked.ok_bind, if_neg hfollows]; rfl⟩
  | delivering block | ended block =>
    exact ⟨_, replica, by simp only [beginBlock, hphase]; rfl⟩

/-- A block that begins has the next height. -/
theorem beginBlock (hendures : Machine.Endures admits sum holds) (h : Within holds k replica)
    {header : BlockHeader} {answer : Except Error Unit} (hadmits : admits header.timestamp)
    (hbegin : replica.beginBlock header = .ok (answer, after)) :
    Within holds (k + 1) after ∧ replica.machine.scheduledSince after.machine ≤ 2 := by
  have hgrown := h.grow hendures
  rcases beginBlock_cases hbegin with ⟨_, rfl⟩ | ⟨_, hheight, fired, machine, htime, hcase⟩
  · refine ⟨hgrown, ?_⟩
    rw [Machine.scheduledSince_self]
    exact Nat.zero_le _
  · have hmachine := hendures.updateTime h.machine hadmits htime
    have hscheduled := Machine.scheduledSince_of_time (hendures.few h.machine) htime
    rcases hcase with ⟨_, _, _, rfl⟩ | ⟨event, _, _, rfl⟩
    · exact ⟨hgrown.moved hmachine hgrown.block_le _, hscheduled⟩
    · refine ⟨hgrown.moved hmachine ?_ _, hscheduled⟩
      rintro block ⟨⟩
      rw [Word.succ_eq_ok_iff.1 hheight]
      exact Nat.succ_le_succ h.height_le

/-! ## The end of a block -/

theorem exists_endBlock (hendures : Machine.Endures admits sum holds) (h : Within holds k replica)
    (hk : k + 1 < UInt64.size) : ∃ answer after, replica.endBlock = .ok (answer, after) := by
  cases hphase : replica.phase with
  | idle | ended block => exact ⟨_, replica, by simp only [endBlock, hphase]; rfl⟩
  | delivering block =>
    obtain ⟨decided, machine, hend⟩ := hendures.exists_endBlock h.machine hk
    have hheight := h.height_le
    obtain ⟨next, hnext⟩ := Word.exists_succ (a := replica.height) (by omega)
    cases decided with
    | error e =>
      exact ⟨.error e, _, by simp only [endBlock, hphase, hend, Checked.ok_bind]; rfl⟩
    | ok fired =>
      cases fired with
      | none => exact ⟨.ok none, _, by simp only [endBlock, hphase, hend, Checked.ok_bind]; rfl⟩
      | some event =>
        exact ⟨.ok (some event), _, by
          simp only [endBlock, hphase, hend, hnext, Checked.ok_bind]; rfl⟩

theorem endBlock (hendures : Machine.Endures admits sum holds) (h : Within holds k replica)
    {answer : Except Error (Option ε)} (hend : replica.endBlock = .ok (answer, after)) :
    Within holds (k + 1) after ∧ replica.machine.scheduledSince after.machine ≤ 2 := by
  have hgrown := h.grow hendures
  rcases endBlock_cases hend with ⟨_, _, rfl⟩ | ⟨block, machine, height, hphase, hasked, _, rfl⟩
  · refine ⟨hgrown, ?_⟩
    rw [Machine.scheduledSince_self]
    exact Nat.zero_le _
  · refine ⟨hgrown.moved (hendures.endBlock h.machine hasked) ?_ _,
      Machine.scheduledSince_of_end (hendures.few h.machine) hasked⟩
    rintro _ ⟨⟩
    exact hgrown.block_le block (by rw [hphase]; rfl)

/-! ## Transactions -/

variable [Wire P]

theorem exists_checkTx (hendures : Machine.Endures admits sum holds) (h : Within holds k replica)
    (hk : k + 1 < UInt64.size) (bytes : List UInt8) :
    ∃ answer, replica.checkTx bytes = .ok answer := by
  cases hdecode : Wire.decode (Transaction P) bytes with
  | error e => exact ⟨.error e, by simp only [checkTx, hdecode]⟩
  | ok tx =>
    obtain ⟨answer, hcheck⟩ := hendures.exists_check h.machine hk tx
    exact ⟨answer, by simp only [checkTx, hdecode, hcheck]⟩

theorem exists_deliverTx (hendures : Machine.Endures admits sum holds) (h : Within holds k replica)
    (hk : k + 1 < UInt64.size) (bytes : List UInt8) :
    ∃ answer after, replica.deliverTx bytes = .ok (answer, after) := by
  cases hphase : replica.phase with
  | idle | ended block => exact ⟨_, replica, by simp only [deliverTx, hphase]; rfl⟩
  | delivering block =>
    cases hdecode : Wire.decode (Transaction P) bytes with
    | error e => exact ⟨.error e, replica, by simp only [deliverTx, hphase, hdecode]⟩
    | ok tx =>
      obtain ⟨checked, hcheck⟩ := hendures.exists_check h.machine hk tx
      cases checked with
      | error e =>
        exact ⟨.error e, replica, by
          simp only [deliverTx, hphase, hdecode, hcheck, Checked.ok_bind]; rfl⟩
      | ok _ =>
        obtain ⟨processed, machine, hprocess⟩ := hendures.exists_process h.machine hk tx
        cases processed with
        | error e =>
          exact ⟨.error e, _, by
            simp only [deliverTx, hphase, hdecode, hcheck, hprocess, Checked.ok_bind]; rfl⟩
        | ok _ =>
          exact ⟨.ok (), _, by
            simp only [deliverTx, hphase, hdecode, hcheck, hprocess, Checked.ok_bind]; rfl⟩

theorem deliverTx (hendures : Machine.Endures admits sum holds) (h : Within holds k replica)
    {bytes : List UInt8} {answer : Except Error Unit}
    (hdeliver : replica.deliverTx bytes = .ok (answer, after)) : Within holds k after := by
  rcases deliverTx_cases hdeliver with
    ⟨_, rfl⟩ | ⟨block, tx, machine, hphase, _, hcheck, hprocess, ⟨_, rfl⟩ | ⟨_, rfl⟩⟩
  · exact h
  · exact h.moved (hendures.process h.machine hcheck hprocess) h.block_le _
  · refine h.moved (hendures.process h.machine hcheck hprocess) ?_ _
    rintro _ ⟨⟩
    exact h.block_le block (by rw [hphase]; rfl)

theorem deliverAll (hendures : Machine.Endures admits sum holds) (h : Within holds k replica)
    (hk : k + 1 < UInt64.size) (index : Nat) (transactions : List (List UInt8)) :
    ∃ answer after, replica.deliverAll index transactions = .ok (answer, after) ∧
      Within holds k after := by
  induction transactions generalizing replica index with
  | nil => exact ⟨.ok [], replica, rfl, h⟩
  | cons bytes rest ih =>
    obtain ⟨answer, next, hdeliver⟩ := h.exists_deliverTx hendures hk bytes
    have hnext := h.deliverTx hendures hdeliver
    obtain ⟨others, last, hrest, hlast⟩ := ih hnext (index + 1)
    rw [Replica.deliverAll, hdeliver, Checked.ok_bind]
    cases answer with
    | ok _ => exact ⟨others, last, hrest, hlast⟩
    | error e =>
      by_cases hrejected : isRejection e = true
      · exact ⟨_, last, by simp only [if_pos hrejected, hrest, Checked.ok_bind]; rfl, hlast⟩
      · exact ⟨.error e, next, by simp only [if_neg hrejected]; rfl, hnext⟩

end Within

end Replica

/-! ## Numbers -/

namespace Numbered
variable {numbered last : Numbered ρ ε κ σ}

/-- Two numbers are spent for each timestamp and for each end of a block. -/
structure Within (holds : Nat → Machine ρ ε κ σ → Prop) (k : Nat) (numbered : Numbered ρ ε κ σ) :
    Prop where
  replica : numbered.replica.Within holds k
  next_le : numbered.next.toNat ≤ 2 * k

namespace Within

omit [RoundBehavior σ P ε] in
theorem moveOn {after : Replica ρ ε κ σ} {scheduled : Nat}
    (hnext : numbered.next.toNat ≤ 2 * k) (hscheduled : scheduled ≤ 2)
    (hk : 2 * (k + 1) < UInt64.size) (hafter : after.Within holds (k + 1)) :
    ∃ last, numbered.moveOn after scheduled = .ok last ∧ Within holds (k + 1) last := by
  have hroom : numbered.next.toNat + scheduled < UInt64.size := by omega
  obtain ⟨next, hadvance, hvalue⟩ := Word.exists_advance hroom
  have hnumber : next.toNat ≤ 2 * (k + 1) := by omega
  exact ⟨⟨after, next⟩, Checked.map_eq_ok_iff.2 ⟨next, hadvance, rfl⟩, hafter, hnumber⟩

theorem grow (hendures : Machine.Endures admits sum holds) (h : Within holds k numbered) :
    Within holds (k + 1) numbered :=
  ⟨h.replica.grow hendures, Nat.le_trans h.next_le (by omega)⟩

theorem setup (hendures : Machine.Endures admits sum holds) (h : Within holds k numbered)
    (hk : 2 * (k + 1) < UInt64.size) :
    ∃ last, numbered.setup = .ok last ∧ Within holds (k + 1) last := by
  obtain ⟨answer, after, hsetup, hmachine, hafter⟩ := h.replica.setup hendures
  have hscheduled := Machine.scheduledBySetup_le (hendures.few h.replica.machine) hmachine
  rw [Numbered.setup, hsetup, Checked.ok_bind]
  exact moveOn h.next_le (by omega) hk (hafter.grow hendures)

theorem beginBlock (hendures : Machine.Endures admits sum holds) (h : Within holds k numbered)
    (hk : 2 * (k + 1) < UInt64.size) {header : BlockHeader} (hadmits : admits header.timestamp) :
    ∃ answer last, numbered.beginBlock header = .ok (answer, last) ∧ Within holds (k + 1) last := by
  obtain ⟨answer, after, hbegin⟩ := h.replica.exists_beginBlock hendures (by omega) hadmits
  obtain ⟨hafter, hscheduled⟩ := h.replica.beginBlock hendures hadmits hbegin
  obtain ⟨last, hmoved, hlast⟩ := moveOn h.next_le hscheduled hk hafter
  refine ⟨answer, last, ?_, hlast⟩
  simp only [Numbered.beginBlock, hbegin, hmoved, Checked.ok_bind]
  rfl

theorem endBlock (hendures : Machine.Endures admits sum holds) (h : Within holds k numbered)
    (hk : 2 * (k + 1) < UInt64.size) :
    ∃ answer last, numbered.endBlock sum = .ok (answer, last) ∧ Within holds (k + 1) last := by
  obtain ⟨total, htotal⟩ := hendures.exists_sum h.replica.machine
  obtain ⟨answer, after, hend⟩ := h.replica.exists_endBlock hendures (by omega)
  obtain ⟨hafter, hscheduled⟩ := h.replica.endBlock hendures hend
  obtain ⟨last, hmoved, hlast⟩ := moveOn h.next_le hscheduled hk hafter
  refine ⟨answer, last, ?_, hlast⟩
  simp only [Numbered.endBlock, htotal, hend, hmoved, Checked.ok_bind]
  rfl

variable [Wire P]

theorem runBlock (hendures : Machine.Endures admits sum holds) (h : Within holds k numbered)
    (hk : 2 * (k + 1) < UInt64.size) (transactions : List (List UInt8)) :
    ∃ answer last, numbered.runBlock sum transactions = .ok (answer, last) ∧
      Within holds (k + 1) last := by
  obtain ⟨delivered, taken, hdeliver, htaken⟩ :=
    h.replica.deliverAll hendures (by omega) 0 transactions
  have hnumbered : Within holds k ⟨taken, numbered.next⟩ := ⟨htaken, h.next_le⟩
  cases delivered with
  | error e =>
    refine ⟨.error e, _, ?_, hnumbered.grow hendures⟩
    simp only [Numbered.runBlock, hdeliver, Checked.ok_bind]
    rfl
  | ok rejected =>
    obtain ⟨decided, ended, hend, hended⟩ := hnumbered.endBlock hendures hk
    cases decided with
    | error e =>
      refine ⟨.error e, ended, ?_, hended⟩
      simp only [Numbered.runBlock, hdeliver, hend, Checked.ok_bind]
      rfl
    | ok event =>
      obtain ⟨answer, committed, hcommit, hcommitted⟩ := hended.replica.commit
      refine ⟨answer.map fun _ => ⟨rejected, event⟩, ⟨committed, ended.next⟩, ?_, hcommitted,
        hended.next_le⟩
      simp only [Numbered.runBlock, hdeliver, hend, hcommit, Checked.ok_bind]
      rfl

/-- The block begins, and later it may end. -/
theorem processBlock (hendures : Machine.Endures admits sum holds) (h : Within holds k numbered)
    (hk : 2 * (k + 2) < UInt64.size) {block : Block} (hadmits : admits block.header.timestamp) :
    ∃ answer last, numbered.processBlock sum block = .ok (answer, last) ∧
      Within holds (k + 2) last := by
  obtain ⟨begins, begun, hbegin, hbegun⟩ := h.beginBlock hendures (by omega) hadmits
  cases begins with
  | error e =>
    refine ⟨.error e, begun, ?_, hbegun.grow hendures⟩
    simp only [Numbered.processBlock, hbegin, Checked.ok_bind]
    rfl
  | ok _ =>
    obtain ⟨outcome, after, hrun, hafter⟩ := hbegun.runBlock hendures hk block.transactions
    cases outcome with
    | error e =>
      refine ⟨.error e, ⟨after.replica.abort, after.next⟩, ?_, hafter.replica.abort, hafter.next_le⟩
      simp only [Numbered.processBlock, hbegin, hrun, Checked.ok_bind]
      rfl
    | ok outcome =>
      refine ⟨.ok outcome, after, ?_, hafter⟩
      simp only [Numbered.processBlock, hbegin, hrun, Checked.ok_bind]
      rfl

/-! ## Runs -/

theorem serve (hendures : Machine.Endures admits sum holds) (h : Within holds k numbered)
    (hk : 2 * (k + 2) < UInt64.size) {demand : Demand}
    (hadmits : ∀ timestamp ∈ demand.timestamps, admits timestamp) :
    ∃ last, numbered.serve sum demand = .ok last ∧ Within holds (k + 2) last := by
  have hplain : ∀ {after : Replica ρ ε κ σ}, after.Within holds k →
      Within holds (k + 2) ⟨after, numbered.next⟩ := fun hafter =>
    grow hendures (grow hendures ⟨hafter, h.next_le⟩)
  cases demand with
  | setup =>
    obtain ⟨last, hsetup, hlast⟩ := h.setup hendures (by omega)
    exact ⟨last, hsetup, hlast.grow hendures⟩
  | call call =>
    cases call with
    | beginBlock header =>
      obtain ⟨answer, last, hbegin, hlast⟩ :=
        h.beginBlock hendures (by omega) (hadmits _ (List.mem_singleton_self _))
      exact ⟨last, Checked.map_eq_ok_iff.2 ⟨_, hbegin, rfl⟩, hlast.grow hendures⟩
    | endBlock =>
      obtain ⟨answer, last, hend, hlast⟩ := h.endBlock hendures (by omega)
      exact ⟨last, Checked.map_eq_ok_iff.2 ⟨_, hend, rfl⟩, hlast.grow hendures⟩
    | processBlock block =>
      obtain ⟨answer, last, hprocess, hlast⟩ :=
        h.processBlock hendures hk (hadmits _ (List.mem_singleton_self _))
      exact ⟨last, Checked.map_eq_ok_iff.2 ⟨_, hprocess, rfl⟩, hlast⟩
    | checkTx bytes =>
      obtain ⟨answer, hcheck⟩ := h.replica.exists_checkTx hendures (by omega) bytes
      have hcall : numbered.replica.call (.checkTx bytes) = .ok numbered.replica :=
        Checked.map_eq_ok_iff.2 ⟨_, hcheck, rfl⟩
      exact ⟨_, Checked.map_eq_ok_iff.2 ⟨_, hcall, rfl⟩, hplain h.replica⟩
    | deliverTx bytes =>
      obtain ⟨answer, after, hdeliver⟩ := h.replica.exists_deliverTx hendures (by omega) bytes
      have hcall : numbered.replica.call (.deliverTx bytes) = .ok after :=
        Checked.map_eq_ok_iff.2 ⟨_, hdeliver, rfl⟩
      exact ⟨_, Checked.map_eq_ok_iff.2 ⟨_, hcall, rfl⟩,
        hplain (h.replica.deliverTx hendures hdeliver)⟩
    | commit =>
      obtain ⟨answer, after, hcommit, hafter⟩ := h.replica.commit
      have hcall : numbered.replica.call .commit = .ok after :=
        Checked.map_eq_ok_iff.2 ⟨_, hcommit, rfl⟩
      exact ⟨_, Checked.map_eq_ok_iff.2 ⟨_, hcall, rfl⟩, hplain hafter⟩
    | abort => exact ⟨⟨numbered.replica.abort, numbered.next⟩, rfl, hplain h.replica.abort⟩

theorem run (hendures : Machine.Endures admits sum holds) (h : Within holds k numbered)
    {demands : List Demand} (hk : 2 * (k + 2 * demands.length) < UInt64.size)
    (hadmits : ∀ demand ∈ demands, ∀ timestamp ∈ demand.timestamps, admits timestamp) :
    ∃ last, numbered.run sum demands = .ok last ∧ Within holds (k + 2 * demands.length) last := by
  induction demands generalizing numbered k with
  | nil => exact ⟨numbered, rfl, h⟩
  | cons demand rest ih =>
    rw [List.length_cons] at hk
    obtain ⟨next, hserve, hnext⟩ :=
      h.serve hendures (by omega) (hadmits demand (List.mem_cons_self ..))
    obtain ⟨last, hrun, hlast⟩ := ih hnext (by omega) fun other hother =>
      hadmits other (List.mem_cons_of_mem _ hother)
    have hspent : k + 2 * (demand :: rest).length = k + 2 + 2 * rest.length := by
      rw [List.length_cons]
      omega
    rw [Numbered.run, List.foldlM_cons, hserve, hspent]
    exact ⟨last, hrun, hlast⟩

end Within

end Numbered

end QuorumRounds
