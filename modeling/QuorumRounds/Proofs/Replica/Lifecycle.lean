import QuorumRounds.Proofs.Machine.Calls
import QuorumRounds.Proofs.Replica.Journal
import QuorumRounds.Proofs.Replica.Spread

/-! # The life of a block

* `Lifecycle`: what holds after every journal.
* `Effect`: what one more call does. A commit that succeeds appends the block in progress, and
  nothing else touches the committed blocks. A call that comes out of turn changes nothing.

An application may answer with the same errors when it is asked to build a round, and then the call
has already changed something (`Unbuilt`). -/

namespace QuorumRounds
set_option autoImplicit false

/-- The only stage at which a request is not refused. -/
def Request.stage : Request → Stage
  | .beginBlock => .idle
  | .deliverTx | .endBlock => .delivering
  | .commit => .ended

/-- The errors that tell of a call at the wrong point of a block, or of a block out of order. -/
def Error.isOutOfTurn : Error → Bool
  | .requestNotAllowed _ _ | .heightDoesNotFollow _ _ => true
  | _ => false

namespace Machine
variable {ρ ε κ σ P : Type} [Ord ρ] [Ord ε] [Ord κ] [RoundBehavior σ P ε]
  {machine after : Machine ρ ε κ σ} {e : Error}

/-- The round that follows the current one on the event cannot be built on the store. -/
def FailsOn (machine : Machine ρ ε κ σ) (kind : ρ) (event : ε) (store : Store) (e : Error) : Prop :=
  ∃ next, machine.app.transitions.next? kind event = some next ∧ machine.build next store = .error e

theorem EventOutcome.eq_error {event : ε} {result : Option Store} {moved : Except Error Unit}
    (h : EventOutcome machine event result moved after)
    (hanswer : .error e = moved.map fun _ => some event) :
    after = machine ∧ ∃ kind round, machine.current = some (kind, round) ∧
      machine.FailsOn kind event (result.getD (RoundBehavior.store round)) e := by
  cases h with
  | ignored | stopped | moved => cases hanswer
  | refused hcurrent hnext hbuild =>
    cases hanswer
    exact ⟨rfl, _, _, hcurrent, _, hnext, hbuild⟩

theorem isOutOfTurn_of_processTransaction {tx : Transaction P}
    (h : machine.processTransaction tx = .ok (.error e, after)) : e.isOutOfTurn = false := by
  have hcall : machine.call (.processTransaction tx) = .ok (.error e, after) := h
  obtain ⟨fired, houtcome, hanswer⟩ := call_outcome hcall
  cases houtcome with
  | unheard =>
    cases hanswer
    rfl
  | @processed _ _ _ _ taken =>
    cases taken with
    | ok _ => cases hanswer
    | error reason =>
      cases hanswer
      rfl

end Machine

namespace Replica
variable {ρ ε κ σ P : Type} [Ord ρ] [Ord ε] [Ord κ] [RoundBehavior σ P ε] [Wire P]
  {replica after : Replica ρ ε κ σ}

/-! ## What holds after every journal -/

structure Lifecycle (journal : List Entry) (replica : Replica ρ ε κ σ) : Prop where
  in_progress : replica.spread.block.isSome = true ↔
    replica.spread.stage = .delivering ∨ replica.spread.stage = .ended
  next_height : ∀ block, replica.phase.block? = some block →
    block.header.height.toNat = replica.height.toNat + 1
  drafts : ∀ block, replica.phase.block? = some block → Drafts journal block
  length_eq : replica.blocks.length = replica.height.toNat
  heights : ∀ (i : Nat) (h : i < replica.blocks.length),
    replica.blocks[i].header.height.toNat = i + 1
  transition_le : replica.transitionHeight.toNat ≤ replica.height.toNat + 1

namespace Lifecycle
variable {journal : List Entry}

theorem ofMachine (machine : Machine ρ ε κ σ) : Lifecycle [] (Replica.ofMachine machine) :=
  ⟨(SpreadReplica.inStep_spread _).in_progress, nofun, nofun, rfl, nofun, Nat.zero_le 1⟩

/-- Nothing of it is about the machine. -/
theorem disturbed (h : Lifecycle journal replica) (machine : Machine ρ ε κ σ) :
    Lifecycle journal { replica with machine := machine } :=
  ⟨h.in_progress, h.next_height, h.drafts, h.length_eq, h.heights, h.transition_le⟩

theorem within {entry : Entry} (h : Lifecycle journal replica) (hentry : entry.isWithin = true)
    (hnone : entry.delivered? = none) : Lifecycle (journal ++ [entry]) replica :=
  ⟨h.in_progress, h.next_height, fun block hblock => (h.drafts block hblock).within hentry hnone,
    h.length_eq, h.heights, h.transition_le⟩

omit [Wire P] in
theorem beginBlock {header : BlockHeader} {answer : Except Error Unit}
    (h : Lifecycle journal replica) (hbegin : replica.beginBlock header = .ok (answer, after)) :
    Lifecycle (journal ++ [⟨.beginBlock header, answer⟩]) after := by
  rcases beginBlock_cases hbegin with ⟨⟨e, rfl⟩, rfl⟩ | ⟨_, hsucc, fired, machine, _, hcases⟩
  · exact h.within rfl rfl
  · have hnext : header.height.toNat = replica.height.toNat + 1 := Word.succ_eq_ok_iff.1 hsucc
    rcases hcases with ⟨e, _, rfl, rfl⟩ | ⟨event, _, rfl, rfl⟩
    · exact (h.disturbed machine).within rfl rfl
    · refine ⟨(SpreadReplica.inStep_spread _).in_progress, ?_, ?_, h.length_eq, h.heights, ?_⟩
      · intro block hblock
        cases hblock
        exact hnext
      · intro block hblock
        cases hblock
        exact drafts_begun journal header
      · have hold := h.transition_le
        by_cases hevent : event.isSome = true
        · simp only [hevent, if_true]
          omega
        · simp only [hevent]
          exact hold

theorem deliverTx {bytes : List UInt8} {answer : Except Error Unit}
    (h : Lifecycle journal replica) (hdeliver : replica.deliverTx bytes = .ok (answer, after)) :
    Lifecycle (journal ++ [⟨.deliverTx bytes, answer⟩]) after := by
  rcases deliverTx_cases hdeliver with ⟨⟨e, rfl, _⟩, rfl⟩ | ⟨block, tx, machine, hphase, _, _, _,
    ⟨⟨e, rfl⟩, rfl⟩ | ⟨rfl, rfl⟩⟩
  · exact h.within rfl rfl
  · exact (h.disturbed machine).within rfl rfl
  · have hblock : replica.phase.block? = some block := by rw [hphase, Phase.block?]
    refine ⟨(SpreadReplica.inStep_spread _).in_progress, ?_, ?_, h.length_eq, h.heights, h.transition_le⟩
    · intro extended hextended
      cases hextended
      exact h.next_height block hblock
    · intro extended hextended
      cases hextended
      exact (h.drafts block hblock).delivered bytes

omit [Wire P] in
theorem endBlock {answer : Except Error (Option ε)} (h : Lifecycle journal replica)
    (hend : replica.endBlock = .ok (answer, after)) :
    Lifecycle (journal ++ [⟨.endBlock, answer.map fun _ => ()⟩]) after := by
  rcases endBlock_cases hend with ⟨_, _, rfl⟩ | ⟨block, machine, height, hphase, _, hheight, rfl⟩
  · exact h.within rfl rfl
  · have hblock : replica.phase.block? = some block := by rw [hphase, Phase.block?]
    have hended : Lifecycle journal { replica with
        machine := machine, phase := .ended block, transitionHeight := height } := by
      refine ⟨(SpreadReplica.inStep_spread _).in_progress, ?_, ?_, h.length_eq, h.heights, ?_⟩
      · intro same hsame
        cases hsame
        exact h.next_height block hblock
      · intro same hsame
        cases hsame
        exact h.drafts block hblock
      · rcases hheight with ⟨_, hsucc⟩ | ⟨_, rfl⟩
        · exact Nat.le_of_eq (Word.succ_eq_ok_iff.1 hsucc)
        · exact h.transition_le
    exact hended.within rfl rfl

omit [RoundBehavior σ P ε] [Wire P] in
theorem commit {answer : Except Error Unit} (h : Lifecycle journal replica)
    (hcommit : replica.commit = .ok (answer, after)) :
    Lifecycle (journal ++ [⟨.commit, answer⟩]) after := by
  rcases commit_cases hcommit with ⟨⟨e, rfl⟩, rfl⟩ | ⟨block, hphase, rfl, rfl⟩
  · exact h.within rfl rfl
  · have hblock : replica.phase.block? = some block := by rw [hphase, Phase.block?]
    have hnext := h.next_height block hblock
    have hlength := h.length_eq
    refine ⟨(SpreadReplica.inStep_spread _).in_progress, ?_, ?_, ?_, ?_, ?_⟩
    · intro other hother
      cases hother
    · intro other hother
      cases hother
    · show (replica.blocks ++ [block]).length = block.header.height.toNat
      rw [List.length_append, List.length_singleton]
      omega
    · intro i hi
      by_cases hold : i < replica.blocks.length
      · simp only [List.getElem_append_left hold]
        exact h.heights i hold
      · have hlast : i = replica.blocks.length := by
          simp only [List.length_append, List.length_singleton] at hi
          omega
        subst hlast
        simp only [List.getElem_concat_length]
        omega
    · have htransition := h.transition_le
      show replica.transitionHeight.toNat ≤ block.header.height.toNat + 1
      omega

omit [RoundBehavior σ P ε] [Wire P] in
theorem abort (h : Lifecycle journal replica) (answer : Except Error Unit) :
    Lifecycle (journal ++ [⟨.abort, answer⟩]) replica.abort :=
  ⟨(SpreadReplica.inStep_spread _).in_progress, nofun, nofun, h.length_eq, h.heights,
    h.transition_le⟩

theorem reply {call : Call} {answer : Except Error Unit} (h : Lifecycle journal replica)
    (hsingle : call.isSingle = true) (hreply : replica.reply call = .ok (answer, after)) :
    Lifecycle (journal ++ [⟨call, answer⟩]) after := by
  cases call with
  | beginBlock header => exact h.beginBlock hreply
  | checkTx bytes =>
    obtain ⟨_, _, heq⟩ := Checked.map_eq_ok_iff.1 hreply
    cases heq
    exact h.within rfl rfl
  | deliverTx bytes => exact h.deliverTx hreply
  | endBlock =>
    obtain ⟨⟨decided, last⟩, hend, heq⟩ := Checked.map_eq_ok_iff.1 hreply
    cases heq
    exact h.endBlock hend
  | commit => exact h.commit hreply
  | abort =>
    cases hreply
    exact h.abort _
  | processBlock block => cases hsingle

end Lifecycle

theorem Journal.lifecycle {machine : Machine ρ ε κ σ} {journal : List Entry}
    (h : Journal (ofMachine machine) journal replica) : Lifecycle journal replica := by
  induction h with
  | start => exact .ofMachine machine
  | called _ hsingle hreply ih => exact ih.reply hsingle hreply
  | disturbed _ machine ih => exact ih.disturbed machine

/-! ## Rounds that cannot be built -/

/-- The call was in turn, and has failed with what the application has answered when it was to build
the round that follows. A block that begins has been given its timestamp by then, and a timeout has
been taken out; a block that ends has been asked for its decision. -/
inductive Unbuilt (replica : Replica ρ ε κ σ) (e : Error) : Call → Replica ρ ε κ σ → Prop where
  | begins {header : BlockHeader} {kind : ρ} {round : σ} {event : ε} (timeouts : Timeouts ε)
    (hphase : replica.phase = .idle) (hheight : header.height.toNat = replica.height.toNat + 1)
    (hcurrent : replica.machine.current = some (kind, round))
    (hfails : replica.machine.FailsOn kind event (RoundBehavior.store round) e) :
    Unbuilt replica e (.beginBlock header)
      { replica with
        machine :=
          { replica.machine with
            timeouts := timeouts, awaitsTime := false, lastTimestamp := some header.timestamp } }
  | ends {block : Block} {kind : ρ} {round asked : σ} {store : Store} {event : ε}
    (hphase : replica.phase = .delivering block)
    (hcurrent : replica.machine.current = some (kind, round))
    (hasked : RoundBehavior.endBlock round = .ok (some (store, event), asked))
    (hfails : replica.machine.FailsOn kind event store e) :
    Unbuilt replica e .endBlock
      { replica with
        machine := { replica.machine with current := some (kind, asked) }
        phase := .ended block }

omit [Wire P] in
theorem refused_of_beginBlock {header : BlockHeader} {e : Error}
    (h : replica.beginBlock header = .ok (.error e, after)) :
    after = replica ∨ Unbuilt replica e (.beginBlock header) after := by
  rcases beginBlock_cases h with ⟨_, hafter⟩ | ⟨hphase, hsucc, fired, machine, htime, hcases⟩
  · exact .inl hafter
  rcases hcases with ⟨_, rfl, heq, rfl⟩ | ⟨_, _, hok, _⟩
  · cases heq
    obtain ⟨_, _, _, _, _, _, _, hanswer, hevent⟩ := Machine.expired_of_updateTime htime nofun
    obtain ⟨rfl, kind, round, hcurrent, hfails⟩ := hevent.eq_error hanswer
    exact .inr (.begins _ hphase (Word.succ_eq_ok_iff.1 hsucc) hcurrent hfails)
  · cases hok

omit [Wire P] in
theorem refused_of_endBlock {e : Error} (h : replica.endBlock = .ok (.error e, after)) :
    after = replica ∨ Unbuilt replica e .endBlock after := by
  rcases endBlock_cases h with ⟨_, _, hafter⟩ | ⟨block, machine, height, hphase, hend, hheight, rfl⟩
  · exact .inl hafter
  obtain rfl : height = replica.transitionHeight := by
    rcases hheight with ⟨⟨_, hsome⟩, _⟩ | ⟨_, hsame⟩
    · cases hsome
    · exact hsame
  generalize hanswer : (.error e : Except Error (Option ε)) = answer at hend
  have houtcome : Machine.Outcome replica.machine .endBlock answer machine :=
    Machine.ask_outcome hend
  cases houtcome with
  | unasked | undecided => cases hanswer
  | decided hcurrent hasked hevent =>
    obtain ⟨rfl, kind', round', hcurrent', hfails⟩ := hevent.eq_error hanswer
    cases hcurrent'
    exact .inr (.ends hphase hcurrent hasked hfails)

/-! ## What one more call does -/

structure Effect (journal : List Entry) (replica : Replica ρ ε κ σ) (call : Call)
    (answer : Except Error Unit) (after : Replica ρ ε κ σ) : Prop where
  committed : call = .commit → answer = .ok () → ∃ block, replica.phase = .ended block ∧
    Drafts journal block ∧ after.blocks = replica.blocks ++ [block]
  kept : ¬ (call = .commit ∧ answer = .ok ()) → after.blocks = replica.blocks
  /-- An application may use the same errors for rounds that it does not build. -/
  refused : ∀ e, answer = .error e → e.isOutOfTurn = true →
    after = replica ∨ Unbuilt replica e call after
  at_other_stage : ∀ request, call.request? = some request → replica.phase.stage ≠ request.stage →
    answer = .error (.requestNotAllowed request replica.phase.stage) ∧ after = replica
  at_other_height : ∀ header, call = .beginBlock header → replica.phase = .idle →
    header.height.toNat ≠ replica.height.toNat + 1 →
    answer = .error (.heightDoesNotFollow header.height replica.height) ∧ after = replica

theorem committed_of_reply {journal : List Entry} (h : Lifecycle journal replica)
    (hreply : replica.reply .commit = .ok (.ok (), after)) :
    ∃ block, replica.phase = .ended block ∧ Drafts journal block ∧
      after.blocks = replica.blocks ++ [block] := by
  rcases commit_cases hreply with ⟨⟨_, hf⟩, _⟩ | ⟨block, hphase, _, rfl⟩
  · cases hf
  · have hblock : replica.phase.block? = some block := by rw [hphase, Phase.block?]
    exact ⟨block, hphase, h.drafts block hblock, rfl⟩

theorem blocks_eq_of_reply {call : Call} {answer : Except Error Unit}
    (hsingle : call.isSingle = true) (hother : ¬ (call = .commit ∧ answer = .ok ()))
    (hreply : replica.reply call = .ok (answer, after)) : after.blocks = replica.blocks := by
  cases call with
  | beginBlock header =>
    rcases beginBlock_cases hreply with ⟨_, rfl⟩ | ⟨_, _, _, _, _, ⟨_, _, _, rfl⟩ | ⟨_, _, _, rfl⟩⟩
    all_goals rfl
  | checkTx bytes =>
    obtain ⟨_, _, heq⟩ := Checked.map_eq_ok_iff.1 hreply
    cases heq
    rfl
  | deliverTx bytes =>
    rcases deliverTx_cases hreply with ⟨_, rfl⟩ | ⟨_, _, _, _, _, _, _, ⟨_, rfl⟩ | ⟨_, rfl⟩⟩
    all_goals rfl
  | endBlock =>
    obtain ⟨⟨decided, last⟩, hend, heq⟩ := Checked.map_eq_ok_iff.1 hreply
    cases heq
    rcases endBlock_cases hend with ⟨_, _, rfl⟩ | ⟨_, _, _, _, _, _, rfl⟩
    all_goals rfl
  | commit =>
    rcases commit_cases hreply with ⟨_, rfl⟩ | ⟨block, _, rfl, _⟩
    · rfl
    · exact absurd ⟨rfl, rfl⟩ hother
  | abort =>
    cases hreply
    rfl
  | processBlock block => cases hsingle

theorem refused_of_reply {call : Call} {e : Error} (hsingle : call.isSingle = true)
    (hreply : replica.reply call = .ok (.error e, after)) (hturn : e.isOutOfTurn = true) :
    after = replica ∨ Unbuilt replica e call after := by
  cases call with
  | beginBlock header => exact refused_of_beginBlock hreply
  | checkTx bytes =>
    obtain ⟨_, _, heq⟩ := Checked.map_eq_ok_iff.1 hreply
    cases heq
    exact .inl rfl
  | deliverTx bytes =>
    rcases deliverTx_cases hreply with ⟨_, hafter⟩ | ⟨_, tx, machine, _, _, _, hprocess, _⟩
    · exact .inl hafter
    · rw [Machine.isOutOfTurn_of_processTransaction hprocess] at hturn
      cases hturn
  | endBlock =>
    obtain ⟨⟨decided, last⟩, hend, heq⟩ := Checked.map_eq_ok_iff.1 hreply
    cases decided with
    | ok event => cases heq
    | error e =>
      cases heq
      exact refused_of_endBlock hend
  | commit => exact .inl (commit_eq_error hreply)
  | abort => cases hreply
  | processBlock block => cases hsingle

/-- Nothing but the stage counts: neither the height nor the transaction is looked at. -/
theorem reply_of_other_stage {call : Call} {request : Request}
    (hrequest : call.request? = some request) (hstage : replica.phase.stage ≠ request.stage) :
    replica.reply call =
      .ok (.error (.requestNotAllowed request replica.phase.stage), replica) := by
  cases call with
  | beginBlock header =>
    cases hrequest
    cases hphase : replica.phase with
    | idle => exact absurd (by rw [hphase]; rfl) hstage
    | delivering block => simp only [reply, Replica.beginBlock, refuse, hphase]
    | ended block => simp only [reply, Replica.beginBlock, refuse, hphase]
  | deliverTx bytes =>
    cases hrequest
    cases hphase : replica.phase with
    | delivering block => exact absurd (by rw [hphase]; rfl) hstage
    | idle => simp only [reply, Replica.deliverTx, refuse, hphase]
    | ended block => simp only [reply, Replica.deliverTx, refuse, hphase]
  | endBlock =>
    cases hrequest
    cases hphase : replica.phase with
    | delivering block => exact absurd (by rw [hphase]; rfl) hstage
    | idle =>
      simp only [reply, Replica.endBlock, refuse, hphase]
      rfl
    | ended block =>
      simp only [reply, Replica.endBlock, refuse, hphase]
      rfl
  | commit =>
    cases hrequest
    cases hphase : replica.phase with
    | ended block => exact absurd (by rw [hphase]; rfl) hstage
    | idle => simp only [reply, Replica.commit, refuse, hphase]
    | delivering block => simp only [reply, Replica.commit, refuse, hphase]
  | checkTx bytes => cases hrequest
  | abort => cases hrequest
  | processBlock block => cases hrequest

omit [Wire P] in
theorem beginBlock_of_other_height {header : BlockHeader} {answer : Except Error Unit}
    (hphase : replica.phase = .idle) (hheight : header.height.toNat ≠ replica.height.toNat + 1)
    (hbegin : replica.beginBlock header = .ok (answer, after)) :
    answer = .error (.heightDoesNotFollow header.height replica.height) ∧ after = replica := by
  simp only [Replica.beginBlock, hphase] at hbegin
  obtain ⟨next, hnext, hrest⟩ := Checked.bind_eq_ok_iff.1 hbegin
  have hne : header.height ≠ next := by
    rintro rfl
    exact hheight (Word.succ_eq_ok_iff.1 hnext)
  rw [if_neg hne] at hrest
  cases hrest
  exact ⟨rfl, rfl⟩

theorem Lifecycle.effect {journal : List Entry} {call : Call} {answer : Except Error Unit}
    (h : Lifecycle journal replica) (hsingle : call.isSingle = true)
    (hreply : replica.reply call = .ok (answer, after)) :
    Effect journal replica call answer after := by
  refine ⟨?_, fun hother => blocks_eq_of_reply hsingle hother hreply, ?_, ?_, ?_⟩
  · rintro rfl rfl
    exact committed_of_reply h hreply
  · rintro e rfl hturn
    exact refused_of_reply hsingle hreply hturn
  · intro request hrequest hstage
    rw [reply_of_other_stage hrequest hstage] at hreply
    cases hreply
    exact ⟨rfl, rfl⟩
  · rintro header rfl hphase hheight
    exact beginBlock_of_other_height hphase hheight hreply

end Replica

end QuorumRounds
