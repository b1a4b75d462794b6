import Mathlib.Data.List.Forall2
import QuorumRounds.Proofs.Replica.Runs
import QuorumRounds.Proofs.Replica.Steps

/-! # Journals

`Journal start journal replica` says that single calls have led from `start` to the replica, and
lists them with what each has answered. Between two of them anything may be done to the machine.

A whole block is a number of single calls, and its answer follows from theirs (`Entry.MadeOf`): they
are made in their order until one fails that the block cannot do without (`Carried`). So every
transcript has a journal, with a part for each call (`Journal.transcript`).

`Drafts` is the block that a journal ends in, which is what has been delivered since it began. -/

namespace QuorumRounds
set_option autoImplicit false

namespace Replica
variable {ρ ε κ σ P : Type} [Ord ρ] [Ord ε] [Ord κ] [RoundBehavior σ P ε] [Wire P]
  {start replica after : Replica ρ ε κ σ} {block : Block}

/-! ## What a whole block is made of -/

/-- The single calls of a block that has begun. -/
def steps (block : Block) : List Call := block.transactions.map .deliverTx ++ [.endBlock, .commit]

/-- The block goes on: the call has succeeded, or a transaction is left out. -/
def Entry.goesOn (entry : Entry) : Bool :=
  match entry.call, entry.answer with
  | _, .ok () => true
  | .deliverTx _, .error e => isRejection e
  | _, .error _ => false

/-- The calls have been made, with this answer in the end. -/
inductive Carried : List Call → Except Error Unit → List Entry → Prop where
  | done : Carried [] (.ok ()) []
  | goes {entry : Entry} {calls : List Call} {answer : Except Error Unit} {entries : List Entry}
    (hgoes : entry.goesOn = true) (h : Carried calls answer entries) :
    Carried (entry.call :: calls) answer (entry :: entries)
  | fails {call : Call} {e : Error} (calls : List Call)
    (hfails : Entry.goesOn ⟨call, .error e⟩ = false) :
    Carried (call :: calls) (.error e) [⟨call, .error e⟩]

namespace Carried
variable {calls rest : List Call} {entries others : List Entry} {answer : Except Error Unit}

theorem append (h : Carried calls (.ok ()) entries) (hrest : Carried rest answer others) :
    Carried (calls ++ rest) answer (entries ++ others) := by
  generalize hok : (.ok () : Except Error Unit) = given at h
  induction h with
  | done => exact hrest
  | goes hgoes _ ih => exact .goes hgoes (ih hok)
  | fails => cases hok

/-- What comes after a failure is not called any more. -/
theorem append_right {e : Error} (h : Carried calls (.error e) entries) (rest : List Call) :
    Carried (calls ++ rest) (.error e) entries := by
  generalize hfails : (.error e : Except Error Unit) = given at h
  induction h with
  | done => cases hfails
  | goes hgoes _ ih =>
    subst hfails
    exact .goes hgoes (ih rfl)
  | fails calls hstops => exact .fails (calls ++ rest) hstops

end Carried

/-- The single calls of a call, with their answers. A whole block may be refused at once, and it is
aborted where it fails. -/
inductive Entry.MadeOf : Entry → List Entry → Prop where
  | single {entry : Entry} (hsingle : entry.call.isSingle = true) : MadeOf entry [entry]
  | refused {block : Block} {e : Error} :
    MadeOf ⟨.processBlock block, .error e⟩ [⟨.beginBlock block.header, .error e⟩]
  | aborted {block : Block} {e : Error} {entries : List Entry}
    (h : Carried (steps block) (.error e) entries) :
    MadeOf ⟨.processBlock block, .error e⟩
      (⟨.beginBlock block.header, .ok ()⟩ :: (entries ++ [⟨.abort, .ok ()⟩]))
  | whole {block : Block} {entries : List Entry} (h : Carried (steps block) (.ok ()) entries) :
    MadeOf ⟨.processBlock block, .ok ()⟩ (⟨.beginBlock block.header, .ok ()⟩ :: entries)

/-! ## Journals -/

/-- The bytes of a transaction that has been delivered. -/
def Entry.delivered? (entry : Entry) : Option (List UInt8) :=
  match entry.call, entry.answer with
  | .deliverTx bytes, .ok () => some bytes
  | _, _ => none

/-- An entry that neither begins a block nor leaves one. -/
def Entry.isWithin (entry : Entry) : Bool :=
  match entry.call, entry.answer with
  | .beginBlock _, .ok () | .commit, .ok () | .abort, _ => false
  | _, _ => true

inductive Journal (start : Replica ρ ε κ σ) : List Entry → Replica ρ ε κ σ → Prop where
  | start : Journal start [] start
  | called {journal : List Entry} {replica after : Replica ρ ε κ σ} {call : Call}
    {answer : Except Error Unit} (h : Journal start journal replica)
    (hsingle : call.isSingle = true) (hreply : replica.reply call = .ok (answer, after)) :
    Journal start (journal ++ [⟨call, answer⟩]) after
  | disturbed {journal : List Entry} {replica : Replica ρ ε κ σ}
    (h : Journal start journal replica) (machine : Machine ρ ε κ σ) :
    Journal start journal { replica with machine := machine }

/-! ## The block of a journal -/

/-- The last block of the journal: its header is that of the call that has begun it, and its
transactions are those that have been delivered since, in their order. -/
def Drafts (journal : List Entry) (block : Block) : Prop :=
  ∃ earlier later, journal = earlier ++ ⟨.beginBlock block.header, .ok ()⟩ :: later ∧
    (∀ entry ∈ later, entry.isWithin = true) ∧
    block.transactions = later.filterMap Entry.delivered?

theorem drafts_begun (journal : List Entry) (header : BlockHeader) :
    Drafts (journal ++ [⟨.beginBlock header, .ok ()⟩]) ⟨header, []⟩ :=
  ⟨journal, [], rfl, by simp, rfl⟩

theorem Drafts.delivered {journal : List Entry} (h : Drafts journal block) (bytes : List UInt8) :
    Drafts (journal ++ [⟨.deliverTx bytes, .ok ()⟩])
      ⟨block.header, block.transactions ++ [bytes]⟩ := by
  obtain ⟨earlier, later, rfl, hwithin, htransactions⟩ := h
  refine ⟨earlier, later ++ [⟨.deliverTx bytes, .ok ()⟩], by simp, ?_, ?_⟩
  · intro entry hentry
    rcases List.mem_append.1 hentry with hold | hnew
    · exact hwithin entry hold
    · rw [List.mem_singleton.1 hnew]
      rfl
  · rw [List.filterMap_append, ← htransactions]
    rfl

/-- Other calls within a block add nothing to it. -/
theorem Drafts.within {journal : List Entry} {entry : Entry} (h : Drafts journal block)
    (hentry : entry.isWithin = true) (hnone : entry.delivered? = none) :
    Drafts (journal ++ [entry]) block := by
  obtain ⟨earlier, later, rfl, hwithin, htransactions⟩ := h
  refine ⟨earlier, later ++ [entry], by simp, ?_, ?_⟩
  · intro other hother
    rcases List.mem_append.1 hother with hold | hnew
    · exact hwithin other hold
    · rw [List.mem_singleton.1 hnew]
      exact hentry
  · rw [List.filterMap_append, ← htransactions, List.filterMap_cons_none hnone,
      List.filterMap_nil, List.append_nil]

/-! ## Every transcript has a journal -/

namespace Journal
variable {journal : List Entry}

/-- The journal of a block is made up from its beginning, so that it tells how far it has come. -/
theorem deliverAll {index : Nat} {transactions : List (List UInt8)}
    {answer : Except Error (List (Nat × Error))} (h : Journal start journal replica)
    (hdeliver : replica.deliverAll index transactions = .ok (answer, after)) :
    ∃ entries, Journal start (journal ++ entries) after ∧
      Carried (transactions.map .deliverTx) (answer.map fun _ => ()) entries := by
  induction transactions generalizing replica journal index answer after with
  | nil =>
    cases hdeliver
    exact ⟨[], by rwa [List.append_nil], .done⟩
  | cons bytes rest ih =>
    rw [Replica.deliverAll] at hdeliver
    obtain ⟨⟨delivered, next⟩, hfirst, hrest⟩ := Checked.bind_eq_ok_iff.1 hdeliver
    have hnext : Journal start (journal ++ [⟨.deliverTx bytes, delivered⟩]) next :=
      h.called rfl hfirst
    have hgoes : ∀ {index : Nat} {answer : Except Error (List (Nat × Error))},
        Entry.goesOn ⟨.deliverTx bytes, delivered⟩ = true →
        next.deliverAll index rest = .ok (answer, after) →
        ∃ entries, Journal start (journal ++ entries) after ∧
          Carried ((bytes :: rest).map .deliverTx) (answer.map fun _ => ()) entries := by
      intro index answer hon hrest
      obtain ⟨entries, hjournal, hcarried⟩ := ih hnext hrest
      exact ⟨⟨.deliverTx bytes, delivered⟩ :: entries, by simpa using hjournal, .goes hon hcarried⟩
    cases delivered with
    | ok _ => exact hgoes rfl hrest
    | error e =>
      by_cases hrejection : isRejection e = true
      · simp only [hrejection, if_true] at hrest
        obtain ⟨⟨others, last⟩, hothers, heq⟩ := Checked.bind_eq_ok_iff.1 hrest
        cases heq
        obtain ⟨entries, hjournal, hcarried⟩ := hgoes hrejection hothers
        refine ⟨entries, hjournal, ?_⟩
        cases others <;> exact hcarried
      · simp only [hrejection] at hrest
        cases hrest
        exact ⟨[_], hnext, .fails _ (Bool.eq_false_iff.2 hrejection)⟩

theorem runBlock {answer : Except Error (BlockOutcome ε)} (h : Journal start journal replica)
    (hrun : replica.runBlock block.transactions = .ok (answer, after)) :
    ∃ entries, Journal start (journal ++ entries) after ∧
      Carried (steps block) (answer.map fun _ => ()) entries := by
  rw [Replica.runBlock] at hrun
  obtain ⟨⟨delivered, last⟩, hdeliver, hrest⟩ := Checked.bind_eq_ok_iff.1 hrun
  obtain ⟨entries, hlast, hcarried⟩ := h.deliverAll hdeliver
  cases delivered with
  | error e =>
    cases hrest
    exact ⟨entries, hlast, hcarried.append_right _⟩
  | ok rejected =>
    obtain ⟨⟨decided, closed⟩, hend, hrest⟩ := Checked.bind_eq_ok_iff.1 hrest
    have hclosed : Journal start
        (journal ++ entries ++ [⟨.endBlock, decided.map fun _ => ()⟩]) closed :=
      hlast.called rfl (Checked.map_eq_ok_iff.2 ⟨_, hend, rfl⟩)
    cases decided with
    | error e =>
      cases hrest
      exact ⟨entries ++ [⟨.endBlock, .error e⟩], by rwa [← List.append_assoc],
        hcarried.append (.fails [.commit] rfl)⟩
    | ok event =>
      obtain ⟨⟨given, committed⟩, hcommit, heq⟩ := Checked.bind_eq_ok_iff.1 hrest
      cases heq
      have hcommitted : Journal start
          (journal ++ entries ++ [⟨.endBlock, .ok ()⟩] ++ [⟨.commit, given⟩]) after :=
        hclosed.called rfl hcommit
      refine ⟨entries ++ [⟨.endBlock, .ok ()⟩, ⟨.commit, given⟩], by simpa using hcommitted, ?_⟩
      have hended : Entry.goesOn ⟨.endBlock, .ok ()⟩ = true := rfl
      cases given with
      | ok _ =>
        have hlast : Entry.goesOn ⟨.commit, .ok ()⟩ = true := rfl
        exact hcarried.append (.goes hended (.goes hlast .done))
      | error e => exact hcarried.append (.goes hended (.fails [] rfl))

theorem processBlock {answer : Except Error (BlockOutcome ε)} (h : Journal start journal replica)
    (hblock : replica.processBlock block = .ok (answer, after)) :
    ∃ entries, Journal start (journal ++ entries) after ∧
      Entry.MadeOf ⟨.processBlock block, answer.map fun _ => ()⟩ entries := by
  rw [Replica.processBlock] at hblock
  obtain ⟨⟨begun, first⟩, hbegin, hrest⟩ := Checked.bind_eq_ok_iff.1 hblock
  have hfirst : Journal start (journal ++ [⟨.beginBlock block.header, begun⟩]) first :=
    h.called rfl hbegin
  cases begun with
  | error e =>
    cases hrest
    exact ⟨_, hfirst, .refused⟩
  | ok _ =>
    obtain ⟨⟨outcome, last⟩, hrun, heq⟩ := Checked.bind_eq_ok_iff.1 hrest
    obtain ⟨entries, hlast, hcarried⟩ := hfirst.runBlock hrun
    rw [List.append_assoc] at hlast
    cases outcome with
    | ok outcome =>
      cases heq
      exact ⟨_, hlast, .whole hcarried⟩
    | error e =>
      cases heq
      have haborted : Journal start (journal ++ (⟨.beginBlock block.header, .ok ()⟩ :: entries) ++
          [⟨.abort, .ok ()⟩]) last.abort := hlast.called rfl rfl
      exact ⟨_, by simpa using haborted, .aborted hcarried⟩

theorem reply {call : Call} {answer : Except Error Unit} (h : Journal start journal replica)
    (hreply : replica.reply call = .ok (answer, after)) :
    ∃ entries, Journal start (journal ++ entries) after ∧ Entry.MadeOf ⟨call, answer⟩ entries := by
  cases call with
  | processBlock block =>
    obtain ⟨⟨outcome, last⟩, hblock, heq⟩ := Checked.map_eq_ok_iff.1 hreply
    cases heq
    exact h.processBlock hblock
  | beginBlock | checkTx | deliverTx | endBlock | commit | abort =>
    exact ⟨[_], h.called rfl hreply, .single rfl⟩

/-- The journal has a part for each call. -/
theorem transcript {calls : List Call} {entries : List Entry} (h : Journal start journal replica)
    (htranscript : replica.transcript calls = .ok (entries, after)) :
    ∃ parts : List (List Entry), Journal start (journal ++ parts.flatten) after ∧
      List.Forall₂ Entry.MadeOf entries parts := by
  induction calls generalizing replica journal entries with
  | nil =>
    cases htranscript
    exact ⟨[], by simpa using h, .nil⟩
  | cons call rest ih =>
    rw [Replica.transcript] at htranscript
    obtain ⟨⟨answer, next⟩, hreply, hrest⟩ := Checked.bind_eq_ok_iff.1 htranscript
    obtain ⟨⟨others, last⟩, hothers, heq⟩ := Checked.bind_eq_ok_iff.1 hrest
    cases heq
    obtain ⟨part, hnext, hmade⟩ := h.reply hreply
    obtain ⟨parts, hafter, hparts⟩ := ih hnext hothers
    exact ⟨part :: parts, by simpa using hafter, .cons hmade hparts⟩

end Journal

end Replica

end QuorumRounds
