import QuorumRounds.Proofs.Replica.Invariant

/-! # What becomes of the transactions of a block

`Sorts replica index transactions rejected kept last` follows the delivery of transactions one by
one: each is checked where it is delivered, and is then either taken or left out with the reason that
the check gives. If the machine tracks its round, `deliverAll` sorts its transactions so
(`sorts_of_deliverAll`).

`Partition` says the same of a whole block: the indices that are left out, what is kept, and the state
in which each transaction has been checked (`Sorts.partition`). -/

namespace QuorumRounds.Replica
set_option autoImplicit false

variable {ρ ε κ σ P γ : Type} [Ord ρ] [Ord ε] [Ord κ] [RoundBehavior σ P ε] [Wire P]

inductive Sorts : Replica ρ ε κ σ → Nat → List (List UInt8) → List (Nat × Error) →
    List (List UInt8) → Replica ρ ε κ σ → Prop where
  | done (replica : Replica ρ ε κ σ) (index : Nat) : Sorts replica index [] [] [] replica
  | taken {replica next last : Replica ρ ε κ σ} {index : Nat} {bytes : List UInt8}
    {rest kept : List (List UInt8)} {rejected : List (Nat × Error)}
    (hcheck : replica.checkTx bytes = .ok (.ok ()))
    (hdeliver : replica.deliverTx bytes = .ok (.ok (), next))
    (hrest : Sorts next (index + 1) rest rejected kept last) :
    Sorts replica index (bytes :: rest) rejected (bytes :: kept) last
  | leftOut {replica last : Replica ρ ε κ σ} {index : Nat} {bytes : List UInt8}
    {rest kept : List (List UInt8)} {rejected : List (Nat × Error)} {e : Error}
    (hcheck : replica.checkTx bytes = .ok (.error e))
    (hdeliver : replica.deliverTx bytes = .ok (.error e, replica)) (hreason : isRejection e = true)
    (hrest : Sorts replica (index + 1) rest rejected kept last) :
    Sorts replica index (bytes :: rest) ((index, e) :: rejected) kept last

variable {replica begun after last : Replica ρ ε κ σ} {index : Nat} {block : Block}
  {bytes : List UInt8} {transactions kept : List (List UInt8)} {rejected : List (Nat × Error)}

/-! ## Delivering sorts -/

section Delivery
variable {holds : γ → List (Transaction P) → Machine ρ ε κ σ → Prop} {g : γ}
  {taken : List (Transaction P)}

/-- Within a block a transaction gets the answer of its check. -/
theorem checkTx_of_deliverTx (htracks : Machine.Tracks holds) (hholds : holds g taken replica.machine)
    (hphase : replica.phase = .delivering block) {answer : Except Error Unit}
    (h : replica.deliverTx bytes = .ok (answer, after)) : replica.checkTx bytes = .ok answer := by
  rw [checkTx]
  simp only [deliverTx, hphase] at h
  cases hdecode : Wire.decode (Transaction P) bytes with
  | error e =>
    rw [hdecode] at h
    cases h
    rfl
  | ok tx =>
    simp only [hdecode] at h
    obtain ⟨checked, hcheck, hrest⟩ := Checked.bind_eq_ok_iff.1 h
    cases checked with
    | error e =>
      cases hrest
      exact hcheck
    | ok _ =>
      obtain ⟨⟨processed, machine⟩, hprocess, heq⟩ := Checked.bind_eq_ok_iff.1 hrest
      obtain ⟨rfl, _⟩ := htracks.processTransaction hholds hcheck hprocess
      cases heq
      exact hcheck

theorem sorts_of_deliverAll (htracks : Machine.Tracks holds) (hholds : holds g taken replica.machine)
    (hphase : replica.phase = .delivering block)
    {answer : Except Error (List (Nat × Error))}
    (h : replica.deliverAll index transactions = .ok (answer, last)) :
    ∃ rejected kept, answer = .ok rejected ∧ Sorts replica index transactions rejected kept last := by
  induction transactions generalizing replica taken block index answer with
  | nil =>
    cases h
    exact ⟨[], [], rfl, .done _ _⟩
  | cons bytes rest ih =>
    rw [deliverAll] at h
    obtain ⟨⟨delivered, next⟩, hdeliver, hrest⟩ := Checked.bind_eq_ok_iff.1 h
    have hcheck := checkTx_of_deliverTx htracks hholds hphase hdeliver
    cases delivered with
    | ok _ =>
      obtain ⟨_, tx, machine, _, _, hpass, hprocess, rfl⟩ := deliverTx_eq_ok hdeliver
      obtain ⟨_, hnext⟩ := htracks.processTransaction hholds hpass hprocess
      obtain ⟨rejected, kept, rfl, hsorts⟩ := ih hnext rfl hrest
      exact ⟨rejected, bytes :: kept, rfl, .taken hcheck hdeliver hsorts⟩
    | error e =>
      obtain ⟨rfl, hrejection⟩ := deliverTx_eq_error htracks hholds hdeliver
      simp only [hrejection block hphase, if_true] at hrest
      obtain ⟨⟨others, final⟩, hothers, heq⟩ := Checked.bind_eq_ok_iff.1 hrest
      cases heq
      obtain ⟨rejected, kept, rfl, hsorts⟩ := ih hholds hphase hothers
      exact ⟨(index, e) :: rejected, kept, rfl,
        .leftOut hcheck hdeliver (hrejection block hphase) hsorts⟩

end Delivery

namespace Sorts

/-- What is taken goes to the end of the block in progress, and nothing else of the replica changes
but its machine. -/
theorem last_eq (h : Sorts replica index transactions rejected kept last)
    (hphase : replica.phase = .delivering block) :
    ∃ machine, last = { replica with
      machine := machine
      phase := .delivering ⟨block.header, block.transactions ++ kept⟩ } := by
  induction h generalizing block with
  | done replica index => exact ⟨replica.machine, by rw [List.append_nil, ← hphase]⟩
  | taken _ hdeliver _ ih =>
    obtain ⟨block', tx, machine, hphase', _, _, _, rfl⟩ := deliverTx_eq_ok hdeliver
    cases hphase.symm.trans hphase'
    obtain ⟨machine', rfl⟩ := ih rfl
    exact ⟨machine', by rw [List.append_assoc, List.singleton_append]⟩
  | leftOut _ _ _ _ ih => exact ih hphase

/-! ## The indices that are left out -/

theorem index_le (h : Sorts replica index transactions rejected kept last) :
    ∀ entry ∈ rejected, index ≤ entry.1 ∧ entry.1 < index + transactions.length := by
  induction h with
  | done => nofun
  | taken _ _ _ ih =>
    intro entry hentry
    have := ih entry hentry
    rw [List.length_cons]
    omega
  | leftOut _ _ _ _ ih =>
    intro entry hentry
    rw [List.length_cons]
    rcases List.mem_cons.1 hentry with rfl | hentry
    · dsimp only
      omega
    · have := ih entry hentry
      omega

theorem increasing (h : Sorts replica index transactions rejected kept last) :
    (rejected.map (·.1)).Pairwise (· < ·) := by
  induction h with
  | done => exact .nil
  | taken _ _ _ ih => exact ih
  | leftOut _ _ _ hrest ih =>
    refine List.pairwise_cons.2 ⟨?_, ih⟩
    intro i hi
    obtain ⟨entry, hentry, rfl⟩ := List.mem_map.1 hi
    exact (hrest.index_le entry hentry).1

theorem not_mem_of_lt (h : Sorts replica index transactions rejected kept last) {i : Nat}
    (hi : i < index) : i ∉ rejected.map (·.1) := by
  intro hmem
  obtain ⟨entry, hentry, rfl⟩ := List.mem_map.1 hmem
  have := (h.index_le entry hentry).1
  omega

/-- The transactions that are not left out are kept, in their order. -/
theorem kept_eq (h : Sorts replica index transactions rejected kept last) :
    kept = ((transactions.zipIdx index).filter fun t => t.2 ∉ rejected.map (·.1)).map (·.1) := by
  induction h with
  | done => rfl
  | @taken _ _ _ index bytes rest kept rejected _ _ hrest ih =>
    have hfirst : index ∉ rejected.map (·.1) := hrest.not_mem_of_lt (Nat.lt_succ_self _)
    rw [List.zipIdx_cons, List.filter_cons_of_pos (by simpa using hfirst), List.map_cons, ← ih]
  | @leftOut _ _ index bytes rest kept rejected e _ _ _ hrest ih =>
    rw [List.zipIdx_cons, List.filter_cons_of_neg (by simp), ih]
    -- all that follow have greater indices, so that this one tells none of them apart
    congr 1
    apply List.filter_congr
    intro t ht
    have hlater : index + 1 ≤ t.2 := (List.mem_zipIdx ht).1
    have hne : t.2 ≠ index := by omega
    simp [hne]

/-! ## The checks -/

theorem reasons (h : Sorts replica index transactions rejected kept last) :
    ∀ entry ∈ rejected, isRejection entry.2 = true := by
  induction h with
  | done => nofun
  | taken _ _ _ ih => exact ih
  | leftOut _ _ hreason _ ih =>
    intro entry hentry
    rcases List.mem_cons.1 hentry with rfl | hentry
    · exact hreason
    · exact ih entry hentry

theorem run_deliverTx {next : Replica ρ ε κ σ} {answer : Except Error Unit}
    (hdeliver : replica.deliverTx bytes = .ok (answer, next)) (calls : List Call) :
    replica.run (.deliverTx bytes :: calls) = next.run calls := by
  have hcall : replica.call (.deliverTx bytes) = .ok next := by
    rw [call, hdeliver]
    rfl
  rw [run, List.foldlM_cons, hcall, Checked.ok_bind, run]

/-- Each transaction has been checked in the state to which the ones before it have led. -/
theorem verdict (h : Sorts replica index transactions rejected kept last) (i : Nat)
    (hbytes : transactions[i]? = some bytes) :
    ∃ before verdict, replica.run ((transactions.take i).map .deliverTx) = .ok before ∧
      before.checkTx bytes = .ok verdict ∧
      ∀ e, (index + i, e) ∈ rejected ↔ verdict = .error e := by
  induction h generalizing i with
  | done => cases hbytes
  | @taken replica next _ index first rest kept rejected hcheck hdeliver hrest ih =>
    cases i with
    | zero =>
      obtain rfl := Option.some.inj hbytes
      refine ⟨replica, .ok (), rfl, hcheck, fun e => ⟨fun hmem => ?_, nofun⟩⟩
      exact absurd (List.mem_map_of_mem hmem) (hrest.not_mem_of_lt (Nat.lt_succ_self _))
    | succ i =>
      obtain ⟨before, verdict, hrun, hverdict, hiff⟩ := ih i hbytes
      refine ⟨before, verdict, ?_, hverdict, fun e => ?_⟩
      · rw [List.take_succ_cons, List.map_cons, run_deliverTx hdeliver, hrun]
      · rw [← hiff e, Nat.add_right_comm, Nat.add_assoc]
  | @leftOut replica _ index first rest kept rejected reason hcheck hdeliver _ hrest ih =>
    cases i with
    | zero =>
      obtain rfl := Option.some.inj hbytes
      refine ⟨replica, .error reason, rfl, hcheck, fun e => ?_⟩
      rw [List.mem_cons, Except.error.injEq, Nat.add_zero, Prod.mk.injEq]
      constructor
      · rintro (⟨_, heq⟩ | hmem)
        · exact heq.symm
        · exact absurd (List.mem_map_of_mem hmem) (hrest.not_mem_of_lt (Nat.lt_succ_self _))
      · exact fun heq => .inl ⟨rfl, heq.symm⟩
    | succ i =>
      obtain ⟨before, verdict, hrun, hverdict, hiff⟩ := ih i hbytes
      have hlater : index + (i + 1) ≠ index := by omega
      refine ⟨before, verdict, ?_, hverdict, fun e => ?_⟩
      · rw [List.take_succ_cons, List.map_cons, run_deliverTx hdeliver, hrun]
      · rw [← hiff e, Nat.add_right_comm, Nat.add_assoc, List.mem_cons, Prod.mk.injEq,
          or_iff_right fun heq => hlater heq.1]

end Sorts

/-! ## Whole blocks -/

/-- Which transactions have been left out and which kept, when a block had begun in this state. -/
structure Partition (begun : Replica ρ ε κ σ) (transactions : List (List UInt8))
    (rejected : List (Nat × Error)) (kept : List (List UInt8)) : Prop where
  increasing : (rejected.map (·.1)).Pairwise (· < ·)
  within : ∀ entry ∈ rejected, entry.1 < transactions.length
  kept_eq : kept = (transactions.zipIdx.filter fun t => t.2 ∉ rejected.map (·.1)).map (·.1)
  verdict : ∀ (i : Nat) (bytes : List UInt8), transactions[i]? = some bytes →
    ∃ before verdict, begun.run ((transactions.take i).map .deliverTx) = .ok before ∧
      before.checkTx bytes = .ok verdict ∧ ∀ e, (i, e) ∈ rejected ↔ verdict = .error e
  reasons : ∀ entry ∈ rejected, (∃ cause, entry.2 = .encoding cause) ∨
    (∃ reason, entry.2 = .invalidTransaction reason) ∨ entry.2 = .internal .noActiveRound

theorem isRejection_cases {e : Error} (h : isRejection e = true) :
    (∃ cause, e = .encoding cause) ∨ (∃ reason, e = .invalidTransaction reason) ∨
      e = .internal .noActiveRound := by
  unfold isRejection at h
  split at h
  · exact .inr (.inl ⟨_, rfl⟩)
  · exact .inl ⟨_, rfl⟩
  · exact .inr (.inr rfl)
  · cases h

theorem Sorts.partition (h : Sorts begun 0 transactions rejected kept last) :
    Partition begun transactions rejected kept where
  increasing := h.increasing
  within := by
    intro entry hentry
    have := (h.index_le entry hentry).2
    omega
  kept_eq := h.kept_eq
  verdict := by
    intro i bytes hbytes
    have hverdict := h.verdict i hbytes
    rwa [Nat.zero_add] at hverdict
  reasons := fun entry hentry => isRejection_cases (h.reasons entry hentry)

section Blocks
variable {holds : γ → List (Transaction P) → Machine ρ ε κ σ → Prop}

/-- The transactions have been sorted, and then the round has been asked for its decision. -/
theorem runBlock_sorts {g : γ} {taken : List (Transaction P)} (htracks : Machine.Tracks holds)
    (hholds : holds g taken begun.machine) (hphase : begun.phase = .delivering block)
    {answer : Except Error (BlockOutcome ε)}
    (h : begun.runBlock transactions = .ok (answer, after)) :
    ∃ outcome kept delivered closed, answer = .ok outcome ∧
      Sorts begun 0 transactions outcome.rejected kept delivered ∧ Held holds delivered ∧
      delivered.endBlock = .ok (.ok outcome.event, closed) ∧
      closed.commit = .ok (.ok (), after) := by
  rw [runBlock] at h
  obtain ⟨⟨answer, delivered⟩, hdeliver, hrest⟩ := Checked.bind_eq_ok_iff.1 h
  obtain ⟨rejected, kept, rfl, hsorts⟩ := sorts_of_deliverAll htracks hholds hphase hdeliver
  obtain ⟨_, _, _, _, hdelivered, hlast⟩ := deliverAll_eq_ok htracks hphase hholds hdeliver
  have hheld : Held holds delivered := by
    rw [hlast]
    exact ⟨g, _, hdelivered⟩
  obtain ⟨machine, rfl⟩ := hsorts.last_eq hphase
  obtain ⟨⟨decided, closed⟩, hend, hrest⟩ := Checked.bind_eq_ok_iff.1 hrest
  cases decided with
  | error e =>
    obtain ⟨_, _, hholds⟩ := hheld
    exact absurd rfl ((endBlock_eq_error htracks hholds hend).1 _)
  | ok event =>
    obtain ⟨_, _, _, _, _, rfl⟩ := endBlock_eq_ok hend
    cases hrest
    exact ⟨⟨rejected, event⟩, kept, _, _, rfl, hsorts, hheld, hend, rfl⟩

/-- Once a block has begun, nothing keeps it from being committed. -/
theorem runBlock_partition {g : γ} {taken : List (Transaction P)} {header : BlockHeader}
    (htracks : Machine.Tracks holds) (hholds : holds g taken begun.machine)
    (hphase : begun.phase = .delivering ⟨header, []⟩) {answer : Except Error (BlockOutcome ε)}
    (h : begun.runBlock transactions = .ok (answer, after)) :
    ∃ outcome kept, answer = .ok outcome ∧ Partition begun transactions outcome.rejected kept ∧
      after.phase = .idle ∧ after.height = header.height ∧
      after.blocks = begun.blocks ++ [⟨header, kept⟩] := by
  obtain ⟨outcome, kept, delivered, closed, rfl, hsorts, -, hend, hcommit⟩ :=
    runBlock_sorts htracks hholds hphase h
  obtain ⟨machine, rfl⟩ := hsorts.last_eq hphase
  obtain ⟨block, ended, height, hblock, _, rfl⟩ := endBlock_eq_ok hend
  cases hblock
  cases hcommit
  exact ⟨outcome, kept, rfl, hsorts.partition, rfl, rfl, rfl⟩

theorem processBlock_partition (htracks : Machine.Tracks holds) (h : Held holds replica)
    (hidle : replica.phase = .idle) (hheight : Word.succ replica.height = .ok block.header.height)
    {answer : Except Error (BlockOutcome ε)}
    (hblock : replica.processBlock block = .ok (answer, after)) :
    ∃ outcome begun kept, answer = .ok outcome ∧
      replica.beginBlock block.header = .ok (.ok (), begun) ∧
      Partition begun block.transactions outcome.rejected kept ∧
      after.phase = .idle ∧ after.height = block.header.height ∧
      after.blocks = replica.blocks ++ [⟨block.header, kept⟩] := by
  obtain ⟨outcome, rfl⟩ := exists_outcome htracks h hidle hheight hblock
  obtain ⟨begun, hbegin, hrun⟩ := begun_of_processBlock hblock
  obtain ⟨g, taken, hholds⟩ := h.beginBlock htracks hbegin
  obtain ⟨_, _, _, machine, _, rfl⟩ := beginBlock_eq_ok hbegin
  obtain ⟨outcome, kept, heq, hcommitted⟩ := runBlock_partition htracks hholds rfl hrun
  cases heq
  exact ⟨outcome, _, kept, rfl, hbegin, hcommitted⟩

/-- A block that cannot begin is answered with why, and changes nothing. -/
theorem processBlock_refused (htracks : Machine.Tracks holds) (h : Held holds replica)
    {answer : Except Error (BlockOutcome ε)}
    (hblock : replica.processBlock block = .ok (answer, after)) :
    (replica.phase ≠ .idle →
      answer = .error (.requestNotAllowed .beginBlock replica.phase.stage) ∧ after = replica) ∧
    (replica.phase = .idle → Word.succ replica.height ≠ .ok block.header.height →
      answer = .error (.heightDoesNotFollow block.header.height replica.height) ∧
        after = replica) := by
  obtain ⟨g, taken, hholds⟩ := id h
  rcases processBlock_cases hblock with ⟨e, rfl, hbegin⟩ | ⟨begun, _, hbegin, _⟩
  · have hsame := beginBlock_eq_error htracks hholds hbegin
    rcases beginBlock_refusal htracks h hbegin with ⟨hphase, rfl⟩ | ⟨hphase, _, rfl⟩
    · exact ⟨fun _ => ⟨rfl, hsame⟩, fun hidle => absurd hidle hphase⟩
    · exact ⟨fun hbusy => absurd hphase hbusy, fun _ _ => ⟨rfl, hsame⟩⟩
  · obtain ⟨hphase, hheight, _⟩ := beginBlock_eq_ok hbegin
    exact ⟨fun hbusy => absurd hphase hbusy, fun _ hnext => absurd hheight hnext⟩

end Blocks

end QuorumRounds.Replica
