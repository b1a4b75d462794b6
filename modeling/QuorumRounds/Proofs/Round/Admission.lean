import Mathlib.Data.List.Sort
import QuorumRounds.Proofs.Ballot.Decisions
import QuorumRounds.Proofs.Gathering.Decisions

/-! # Which payloads are accepted, and what they change

A transaction is accepted for its kind, the names of its attributes and its sender, who must not have
been heard before (`Poll.Admits`). What others have sent, and how often decisions have been asked
for, is not looked at.

`Holding` is what a transaction may change: one entry of the collection and, where votes are counted,
one vote (`Holding.Gains`). That the two stay in step is what a ballot has to be reached for: its
tally counts a sender once, and does not look at the collection. -/

namespace QuorumRounds
set_option autoImplicit false

/-! ## Layouts -/

/-- The data has the attributes that the layout lists, each of them once. -/
structure Shape.Fits (shape : Shape) (data : SortedMap String Value) : Prop where
  nodup : shape.attributes.Nodup
  names : ∀ name, name ∈ shape.attributes ↔ data.contains name = true

theorem SortedMap.keys_sorted {α : Type} (m : SortedMap String α) :
    m.keys.Pairwise fun a b => decide (a ≤ b) = true := by
  rw [keys, List.pairwise_map]
  have hkeys : m.entries.Pairwise fun a b => compare a.1 b.1 = .lt := m.keysIncrease
  refine hkeys.imp fun hlt => ?_
  have hless := compareOfLessAndEq_eq_lt.1 hlt
  exact decide_eq_true (Std.le_of_not_ge fun hge => hge hless)

theorem Shape.check_eq_ok_iff {shape : Shape} {data : SortedMap String Value} :
    shape.check data = .ok () ↔ shape.Fits data := by
  have hperm := List.mergeSort_perm shape.attributes fun a b => decide (a ≤ b)
  have hcheck : shape.check data = .ok () ↔ shape.attributes.mergeSort = data.keys := by
    unfold check
    by_cases heq : shape.attributes.mergeSort = data.keys
    · simp [heq]
    · simp [heq]
  rw [hcheck]
  constructor
  · intro heq
    rw [heq] at hperm
    refine ⟨hperm.nodup_iff.1 data.nodup_keys, fun name => ?_⟩
    rw [← hperm.mem_iff, SortedMap.contains_iff_mem_keys]
  · intro hfits
    have hsame : data.keys.Perm shape.attributes := by
      rw [List.perm_ext_iff_of_nodup data.nodup_keys hfits.nodup]
      intro name
      rw [hfits.names, SortedMap.contains_iff_mem_keys]
    have hsorted : shape.attributes.mergeSort.Pairwise fun a b => decide (a ≤ b) = true := by
      refine List.pairwise_mergeSort (fun a b c hab hbc => ?_) (fun a b => ?_) _
      · exact decide_eq_true (String.le_trans (of_decide_eq_true hab) (of_decide_eq_true hbc))
      · rw [Bool.or_eq_true, decide_eq_true_iff, decide_eq_true_iff]
        exact String.le_total a b
    refine (hperm.trans hsame.symm).eq_of_pairwise ?_ hsorted data.keys_sorted
    exact fun a b _ _ hab hba => String.le_antisymm (of_decide_eq_true hab) (of_decide_eq_true hba)

/-! ## What is accepted -/

section Admission
variable {P κ : Type} [Ord κ] [Payload P κ]

structure Poll.Admits (poll : Poll κ) (heard : SortedMap String P) (tx : Transaction P) : Prop where
  kind_eq : Payload.kind tx.payload = poll.allowed
  layout : ∃ shape, poll.registry.shapes.get? poll.allowed = some shape ∧
    shape.Fits (Payload.data tx.payload)
  participant : tx.sender ∈ poll.participants.domain
  unheard : tx.sender ∉ heard.domain

theorem Poll.admits_iff [DecidableEq κ] [Named κ] {poll : Poll κ} {heard : SortedMap String P}
    {tx : Transaction P} :
    poll.check tx = .ok () ∧ heard.contains tx.sender = false ↔ poll.Admits heard tx := by
  rw [Poll.check_eq_ok_iff, ← SortedMap.mem_domain, ← Bool.not_eq_true, ← SortedMap.mem_domain]
  simp only [Shape.check_eq_ok_iff]
  constructor
  · rintro ⟨⟨hkind, hlayout, hmember⟩, hunheard⟩
    exact ⟨hkind, hlayout, hmember, hunheard⟩
  · intro h
    exact ⟨⟨h.kind_eq, h.layout, h.participant⟩, h.unheard⟩

end Admission

/-! ## What is changed -/

section Changes
variable {P κ : Type}

/-- One more vote, for the first candidate that it equals or else for a new one behind the others. -/
structure Tally.Gains [Payload P κ] (before : Tally P) (sender : String) (payload : P)
    (after : Tally P) : Prop where
  unheard : sender ∉ before.voters.domain
  voters_eq : after.voters = SortedSet.insert before.voters sender
  counted :
    (∃ front candidate senders behind,
      before.candidates = front ++ (candidate, senders) :: behind ∧
      (∀ c ∈ front, Payload.same c.1 payload = false) ∧ Payload.same candidate payload = true ∧
      sender ∉ senders.domain ∧
      after.candidates = front ++ (candidate, SortedSet.insert senders sender) :: behind) ∨
    ((∀ c ∈ before.candidates, Payload.same c.1 payload = false) ∧
      after.candidates = before.candidates ++ [(payload, SortedSet.singleton sender)])

structure Holding (P : Type) where
  collection : SortedMap String P
  /-- Nothing where votes are not counted. -/
  tally : Option (Tally P)
  confirmations : Confirmations

structure Holding.Gains [Payload P κ] (before : Holding P) (tx : Transaction P)
    (after : Holding P) : Prop where
  collection_eq : after.collection = before.collection.insert tx.sender tx.payload
  tally : Option.Rel (fun old new => old.Gains tx.sender tx.payload new) before.tally after.tally
  confirmations_eq : after.confirmations = before.confirmations

/-- The transaction passes the check, and is accepted, exactly when it is admitted. It changes nothing
if it is not accepted. -/
structure Handles [Payload P κ] {σ : Type} (holding : σ → Holding P) (before : σ)
    (tx : Transaction P) (admitted passed : Prop)
    (outcome : Checked (Except InternalError Unit × σ)) : Prop where
  passed_iff : passed ↔ admitted
  accepted_iff : (∃ after, outcome = .ok (.ok (), after)) ↔ passed
  gains : ∀ after, outcome = .ok (.ok (), after) → (holding before).Gains tx (holding after)
  keeps : ∀ e after, outcome = .ok (.error e, after) → after = before

theorem Handles.of_process [Payload P κ] {σ : Type} {holding : σ → Holding P} {before accepted : σ}
    {tx : Transaction P} {admitted passed : Prop} {process : Except InternalError σ}
    (hpassed : passed ↔ admitted)
    (hprocess : ∀ after, process = .ok after ↔ passed ∧ after = accepted)
    (hgains : passed → (holding before).Gains tx (holding accepted)) :
    Handles holding before tx admitted passed (.ok (answered before process)) := by
  cases process with
  | ok after =>
    obtain ⟨hyes, rfl⟩ := (hprocess after).1 rfl
    refine ⟨hpassed, ⟨fun _ => hyes, fun _ => ⟨after, rfl⟩⟩, ?_, ?_⟩
    · rintro _ ⟨⟩
      exact hgains hyes
    · rintro e _ ⟨⟩
  | error e =>
    have hno : ¬passed := fun hyes => by cases (hprocess accepted).2 ⟨hyes, rfl⟩
    refine ⟨hpassed, ⟨?_, fun hyes => absurd hyes hno⟩, ?_, ?_⟩
    · rintro ⟨_, ⟨⟩⟩
    · rintro _ ⟨⟩
    · rintro _ _ ⟨⟩
      rfl

end Changes

/-! ## Tallies -/

theorem Tally.Counts.gains {P κ : Type} [Payload P κ] {tally : Tally P} {votes : List (String × P)}
    {sender : String} (h : tally.Counts votes) (hnew : sender ∉ tally.voters.domain) (payload : P) :
    tally.Gains sender payload (tally.add sender payload) := by
  have hnotYet : tally.hasVoted sender = false := by
    rw [Tally.hasVoted, ← Bool.not_eq_true, ← SortedMap.mem_domain]
    exact hnew
  rw [Tally.add_of_not_hasVoted hnotYet]
  refine ⟨hnew, rfl, ?_⟩
  rcases Tally.support_cases sender payload tally.candidates with
    ⟨front, candidate, senders, behind, hcandidates, hfront, hsame, hsupport⟩ | ⟨hnone, hsupport⟩
  · refine .inl ⟨front, candidate, senders, behind, hcandidates, hfront, hsame, ?_, hsupport⟩
    have hmem : (candidate, senders) ∈ tally.candidates := by
      rw [hcandidates]
      exact List.mem_append_right _ (List.mem_cons_self ..)
    exact fun hsender => hnew (h.senders_subset hmem hsender)
  · exact .inr ⟨hnone, hsupport⟩

/-! ## Gatherings and ballots -/

section Rounds
variable {P κ : Type} [Ord κ]

def Gathering.holding (gathering : Gathering P κ) : Holding P :=
  ⟨gathering.collection, none, gathering.confirmations⟩

def Ballot.holding (ballot : Ballot P κ) : Holding P :=
  ⟨ballot.collection, some ballot.tally, ballot.confirmations⟩

variable [Payload P κ] [DecidableEq κ] [Named κ]

theorem Gathering.check_iff_admits {gathering : Gathering P κ} {tx : Transaction P} :
    gathering.check tx = .ok () ↔ gathering.poll.Admits gathering.collection tx :=
  Gathering.check_eq_ok_iff.trans Poll.admits_iff

theorem Ballot.check_iff_admits {ballot : Ballot P κ} {tx : Transaction P} :
    ballot.check tx = .ok () ↔ ballot.poll.Admits ballot.collection tx :=
  Ballot.check_eq_ok_iff.trans Poll.admits_iff

omit [DecidableEq κ] [Named κ] in
theorem Gathering.gains_accept (gathering : Gathering P κ) (tx : Transaction P) :
    gathering.holding.Gains tx (gathering.accept tx).holding := ⟨rfl, .none, rfl⟩

theorem Ballot.Took.gains_accept {ballot : Ballot P κ} {poll : Poll κ} {required : UInt64}
    {taken : List (Transaction P)} {tx : Transaction P} (h : ballot.Took poll required taken)
    (hcheck : ballot.check tx = .ok ()) :
    ballot.holding.Gains tx (ballot.accept tx).holding := by
  have hnew := (Ballot.check_iff_admits.1 hcheck).unheard
  rw [← h.voters_eq] at hnew
  exact ⟨rfl, .some (h.counts.gains hnew tx.payload), rfl⟩

theorem Gathering.handles (gathering : Gathering P κ) (tx : Transaction P) :
    Handles Gathering.holding gathering tx (gathering.poll.Admits gathering.collection tx)
      (gathering.check tx = .ok ()) (.ok (answered gathering (gathering.process tx))) :=
  .of_process Gathering.check_iff_admits (fun _ => Gathering.process_eq_ok_iff)
    fun _ => gathering.gains_accept tx

theorem Ballot.Took.handles {ballot : Ballot P κ} {poll : Poll κ} {required : UInt64}
    {taken : List (Transaction P)} (h : ballot.Took poll required taken) (tx : Transaction P) :
    Handles Ballot.holding ballot tx (ballot.poll.Admits ballot.collection tx)
      (ballot.check tx = .ok ()) (.ok (answered ballot (ballot.process tx))) :=
  .of_process Ballot.check_iff_admits (fun _ => Ballot.process_eq_ok_iff) h.gains_accept

/-! ## Any run -/

variable {roundId : String} {allowed : κ} {context : RoundContext κ} {poll : Poll κ}

theorem Gathering.handles_of_run (hpoll : Poll.ofContext roundId allowed context = .ok poll)
    (quota : Quota) :
    ∃ opened : Gathering P κ, Gathering.ofContext quota roundId allowed context = .ok opened ∧
      ∀ calls journal, opened.run calls = .ok journal → ∀ tx,
        Handles Gathering.holding journal.gathering tx
          (poll.Admits journal.gathering.collection tx) (journal.gathering.check tx = .ok ())
          (.ok (answered journal.gathering (journal.gathering.process tx))) := by
  refine ⟨_, Gathering.ofContext_eq_ok_iff.2 ⟨poll, hpoll, rfl⟩, fun calls journal hrun tx => ?_⟩
  have hnone : Gathering.Took ⟨poll, quota, ∅, .ofRequired context.requiredConfirmations⟩ poll
      quota context.requiredConfirmations ([] : List (Transaction P)) :=
    ⟨rfl, rfl, rfl, .nil poll, rfl⟩
  rw [← (hnone.run hrun).poll_eq]
  exact journal.gathering.handles tx

theorem Ballot.handles_of_run (hpoll : Poll.ofContext roundId allowed context = .ok poll) :
    ∃ opened : Ballot P κ, Ballot.ofContext roundId allowed context = .ok opened ∧
      ∀ calls verdicts ballot, opened.run calls = .ok (verdicts, ballot) → ∀ tx,
        Handles Ballot.holding ballot tx (poll.Admits ballot.collection tx)
          (ballot.check tx = .ok ()) (.ok (answered ballot (ballot.process tx))) := by
  have hopen := (Ballot.ofContext_eq_ok_iff (P := P)).2 ⟨poll, hpoll, rfl⟩
  refine ⟨_, hopen, fun calls verdicts ballot hrun tx => ?_⟩
  obtain ⟨taken, htook⟩ := (Ballot.took_ofContext hopen).run hrun
  have hhandles := htook.handles tx
  rw [htook.poll_eq] at hhandles
  exact hhandles

end Rounds

end QuorumRounds
