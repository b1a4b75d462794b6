import QuorumRounds.Proofs.Replica.Invariant

/-! # Replaying the committed blocks

`Replays start phase replica` says that the replica, which is in that phase, can be reached from
`start` through the blocks it has committed and then through what it holds of the block in progress.
Each call keeps this (`Replays.call`): a call that is refused changes nothing, and one that is not is
a further step of the block in progress. Where no block is in progress this is the replay of the
committed blocks (`replay_of_run`). -/

namespace QuorumRounds.Replica
set_option autoImplicit false

variable {ρ ε κ σ P γ : Type} [Ord ρ] [Ord ε] [Ord κ] [RoundBehavior σ P ε] [Wire P]

/-! ## One more transaction, one more block -/

variable {start base begun delivered replica after : Replica ρ ε κ σ} {block : Block}

theorem deliverAll_concat {bytes : List UInt8} {transactions : List (List UInt8)} {index : Nat}
    (hall : begun.deliverAll index transactions = .ok (.ok [], delivered))
    (hlast : delivered.deliverTx bytes = .ok (.ok (), after)) :
    begun.deliverAll index (transactions ++ [bytes]) = .ok (.ok [], after) := by
  induction transactions generalizing begun index with
  | nil =>
    cases hall
    simp only [List.nil_append, deliverAll, hlast, Checked.ok_bind]
  | cons first rest ih =>
    rw [deliverAll] at hall
    obtain ⟨⟨answer, next⟩, hfirst, hrest⟩ := Checked.bind_eq_ok_iff.1 hall
    cases answer with
    | ok _ =>
      rw [List.cons_append, deliverAll, hfirst]
      exact ih hrest
    | error e =>
      by_cases hrejection : isRejection e = true
      · simp only [hrejection, if_true] at hrest
        obtain ⟨⟨others, last⟩, _, heq⟩ := Checked.bind_eq_ok_iff.1 hrest
        cases others <;> cases heq
      · simp only [hrejection] at hrest
        cases hrest

theorem processBlock_of_steps {event : Option ε}
    (hbegin : base.beginBlock block.header = .ok (.ok (), begun))
    (hdeliver : begun.deliverAll 0 block.transactions = .ok (.ok [], delivered))
    (hend : delivered.endBlock = .ok (.ok event, replica))
    (hcommit : replica.commit = .ok (.ok (), after)) :
    base.processBlock block = .ok (.ok ⟨[], event⟩, after) := by
  simp only [processBlock, runBlock, hbegin, hdeliver, hend, hcommit, Checked.ok_bind]
  rfl

/-! ## What a replica has recorded -/

inductive Replays (start : Replica ρ ε κ σ) : Phase → Replica ρ ε κ σ → Prop where
  | idle {replica : Replica ρ ε κ σ} {outcomes : List (Except Error (BlockOutcome ε))}
    (hall : start.processAll replica.blocks = .ok (outcomes, replica))
    (hclean : ∀ outcome ∈ outcomes, ∃ event, outcome = .ok ⟨[], event⟩) :
    Replays start .idle replica
  | delivering {base begun replica : Replica ρ ε κ σ} {block : Block}
    (hbase : Replays start .idle base) (hblocks : replica.blocks = base.blocks)
    (hbegin : base.beginBlock block.header = .ok (.ok (), begun))
    (hdeliver : begun.deliverAll 0 block.transactions = .ok (.ok [], replica)) :
    Replays start (.delivering block) replica
  | ended {delivered replica : Replica ρ ε κ σ} {block : Block} {event : Option ε}
    (hdelivered : Replays start (.delivering block) delivered)
    (hblocks : replica.blocks = delivered.blocks)
    (hend : delivered.endBlock = .ok (.ok event, replica)) : Replays start (.ended block) replica

namespace Replays

theorem beginBlock {header : BlockHeader} (h : Replays start replica.phase replica)
    (hbegin : replica.beginBlock header = .ok (.ok (), after)) :
    Replays start after.phase after := by
  obtain ⟨hphase, _, event, machine, _, rfl⟩ := beginBlock_eq_ok hbegin
  rw [hphase] at h
  exact .delivering h rfl hbegin rfl

theorem deliverTx {bytes : List UInt8} (h : Replays start replica.phase replica)
    (hdeliver : replica.deliverTx bytes = .ok (.ok (), after)) :
    Replays start after.phase after := by
  obtain ⟨block, tx, machine, hphase, _, _, _, rfl⟩ := deliverTx_eq_ok hdeliver
  rw [hphase] at h
  cases h with
  | delivering hbase hblocks hbegin hall =>
    exact .delivering hbase hblocks hbegin (deliverAll_concat hall hdeliver)

theorem endBlock {event : Option ε} (h : Replays start replica.phase replica)
    (hend : replica.endBlock = .ok (.ok event, after)) : Replays start after.phase after := by
  obtain ⟨block, machine, height, hphase, _, rfl⟩ := endBlock_eq_ok hend
  rw [hphase] at h
  exact .ended h rfl hend

/-- The block in progress has been driven through all its steps, so it can be processed whole. -/
theorem commit (h : Replays start replica.phase replica)
    (hcommit : replica.commit = .ok (.ok (), after)) : Replays start after.phase after := by
  obtain ⟨block, hphase, hafter⟩ := commit_eq_ok hcommit
  rw [hphase] at h
  cases h with
  | @ended delivered _ _ event hdelivered hsame hend =>
    cases hdelivered with
    | @delivering base begun _ _ hbase hblocks hbegin hdeliver =>
      cases hbase with
      | @idle _ outcomes hall hclean =>
        have hblock := processBlock_of_steps hbegin hdeliver hend hcommit
        have hnext := processAll_concat hall hblock
        have hlog : after.blocks = base.blocks ++ [block] := by
          rw [hafter, ← hblocks, ← hsame]
        have hidle : after.phase = .idle := by rw [hafter]
        rw [← hlog] at hnext
        rw [hidle]
        apply Replays.idle hnext
        intro outcome houtcome
        rcases List.mem_append.1 houtcome with hold | hnew
        · exact hclean outcome hold
        · exact ⟨event, List.mem_singleton.1 hnew⟩

end Replays

/-! ## Any run -/

section Run
variable {holds : γ → List (Transaction P) → Machine ρ ε κ σ → Prop}

/-- A refused call leaves the replica as it was, and with it everything that is known of it. -/
theorem Replays.call {c : Call} (htracks : Machine.Tracks holds)
    (h : Replays start replica.phase replica) (hheld : Held holds replica)
    (hstep : c.isStep = true) (hcall : replica.call c = .ok after) :
    Replays start after.phase after := by
  obtain ⟨g, taken, hholds⟩ := hheld
  cases c with
  | beginBlock header =>
    obtain ⟨⟨answer, next⟩, hbegin, rfl⟩ := Checked.map_eq_ok_iff.1 hcall
    cases answer with
    | error e =>
      obtain rfl := beginBlock_eq_error htracks hholds hbegin
      exact h
    | ok _ => exact h.beginBlock hbegin
  | checkTx bytes =>
    obtain ⟨_, _, rfl⟩ := Checked.map_eq_ok_iff.1 hcall
    exact h
  | deliverTx bytes =>
    obtain ⟨⟨answer, next⟩, hdeliver, rfl⟩ := Checked.map_eq_ok_iff.1 hcall
    cases answer with
    | error e =>
      obtain rfl := (deliverTx_eq_error htracks hholds hdeliver).1
      exact h
    | ok _ => exact h.deliverTx hdeliver
  | endBlock =>
    obtain ⟨⟨answer, next⟩, hend, rfl⟩ := Checked.map_eq_ok_iff.1 hcall
    cases answer with
    | error e =>
      obtain rfl := (endBlock_eq_error htracks hholds hend).2
      exact h
    | ok event => exact h.endBlock hend
  | commit =>
    obtain ⟨⟨answer, next⟩, hcommit, rfl⟩ := Checked.map_eq_ok_iff.1 hcall
    cases answer with
    | error e =>
      obtain rfl := commit_eq_error hcommit
      exact h
    | ok _ => exact h.commit hcommit
  | abort => cases hstep
  | processBlock block => cases hstep

theorem replay_of_run {calls : List Call} (htracks : Machine.Tracks holds)
    (h : Replays start replica.phase replica) (hheld : Held holds replica)
    (hsteps : ∀ c ∈ calls, c.isStep = true) (hrun : replica.run calls = .ok after)
    (hidle : after.phase = .idle) :
    ∃ outcomes, start.processAll after.blocks = .ok (outcomes, after) ∧
      ∀ outcome ∈ outcomes, ∃ event, outcome = .ok ⟨[], event⟩ := by
  induction calls generalizing replica with
  | nil =>
    cases hrun
    rw [hidle] at h
    cases h with
    | @idle _ outcomes hall hclean => exact ⟨outcomes, hall, hclean⟩
  | cons c rest ih =>
    rw [run, List.foldlM_cons] at hrun
    obtain ⟨next, hcall, hrest⟩ := Checked.bind_eq_ok_iff.1 hrun
    have hnext := h.call htracks hheld (hsteps c (List.mem_cons_self ..)) hcall
    exact ih hnext (hheld.call htracks hcall) (fun c hc => hsteps c (List.mem_cons_of_mem _ hc)) hrest

end Run

end QuorumRounds.Replica
