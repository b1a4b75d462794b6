import Mathlib.Data.List.Induction
import QuorumRounds.Proofs.Ballot.Agreement
import QuorumRounds.Proofs.Gathering.Payloads

/-! # What a gathering decides, over any run

A run of a gathering processes transactions and asks for decisions, in any order. A `Journal` keeps
the transactions that have been accepted and, for each question, those accepted before it and the
answer.

What participants send does not matter to the answers, only how many of them have sent something:
before the quota is in, a question is answered by the number of participants alone. Past it, the
questions are counted, and those that come after the required number get everything that has been
accepted until then (`Decides`). -/

namespace QuorumRounds.Gathering
set_option autoImplicit false

variable {P κ : Type} [Ord κ] [Payload P κ] [DecidableEq κ] [Named κ]

inductive Call (P : Type) where
  | process (tx : Transaction P)
  | decide

/-- What had been accepted when the question was asked, and the answer. -/
structure Verdict (P : Type) where
  held : List (Transaction P)
  decision : Decision (SortedMap String P)

structure Journal (P κ : Type) [Ord κ] where
  gathering : Gathering P κ
  accepted : List (Transaction P)
  verdicts : List (Verdict P)

namespace Journal

def process (journal : Journal P κ) (tx : Transaction P) : Journal P κ :=
  match journal.gathering.process tx with
  | .error _ => journal
  | .ok after => { journal with gathering := after, accepted := journal.accepted ++ [tx] }

def call (journal : Journal P κ) : Call P → Checked (Journal P κ)
  | .process tx => .ok (journal.process tx)
  | .decide => do
    let (decision, after) ← journal.gathering.decide
    pure { journal with
      gathering := after, verdicts := journal.verdicts ++ [⟨journal.accepted, decision⟩] }

theorem call_decide {journal : Journal P κ} {decision : Decision (SortedMap String P)}
    {after : Gathering P κ} (h : journal.gathering.decide = .ok (decision, after)) :
    journal.call .decide = .ok { journal with
      gathering := after, verdicts := journal.verdicts ++ [⟨journal.accepted, decision⟩] } := by
  rw [call, h]
  rfl

end Journal

def run (gathering : Gathering P κ) (calls : List (Call P)) : Checked (Journal P κ) :=
  calls.foldlM Journal.call ⟨gathering, [], []⟩

/-- The questions that were asked when the quota was in. -/
def late (needed : Nat) (verdicts : List (Verdict P)) : List (Verdict P) :=
  verdicts.filter fun v => needed ≤ v.held.length

omit [Ord κ] [Payload P κ] [DecidableEq κ] [Named κ] in
theorem late_concat (needed : Nat) (verdicts : List (Verdict P)) (v : Verdict P) :
    late needed (verdicts ++ [v]) =
      late needed verdicts ++ if needed ≤ v.held.length then [v] else [] := by
  rw [late, List.filter_append, late]
  by_cases hlate : needed ≤ v.held.length
  · rw [if_pos hlate, List.filter_cons_of_pos (by simpa using hlate), List.filter_nil]
  · rw [if_neg hlate, List.filter_cons_of_neg (by simpa using hlate), List.filter_nil]

/-! ## One call -/

section Took
variable {poll : Poll κ} {quota : Quota} {required : UInt64} {journal next : Journal P κ}

theorem Took.processed (h : journal.gathering.Took poll quota required journal.accepted)
    (tx : Transaction P) :
    (journal.process tx).gathering.Took poll quota required (journal.process tx).accepted := by
  rw [Journal.process]
  cases hprocess : journal.gathering.process tx with
  | error e => exact h
  | ok after =>
    obtain ⟨hcheck, rfl⟩ := process_eq_ok_iff.1 hprocess
    exact h.accept hcheck

theorem Took.call {c : Call P} (h : journal.gathering.Took poll quota required journal.accepted)
    (hcall : journal.call c = .ok next) :
    next.gathering.Took poll quota required next.accepted := by
  cases c with
  | process tx =>
    cases hcall
    exact h.processed tx
  | decide =>
    obtain ⟨⟨decision, after⟩, hdecide, heq⟩ := Checked.bind_eq_ok_iff.1 hcall
    cases heq
    exact (h.decide hdecide).1

theorem Took.run {opened : Gathering P κ} {calls : List (Call P)}
    (h : opened.Took poll quota required []) (hrun : opened.run calls = .ok journal) :
    journal.gathering.Took poll quota required journal.accepted :=
  Checked.holds_of_foldlM (fun j : Journal P κ => j.gathering.Took poll quota required j.accepted)
    (fun _ _ _ => Took.call) h hrun

end Took

/-- The verdicts of a run up to here, which began with a gathering that had taken nothing. -/
structure Decides (journal : Journal P κ) (poll : Poll κ) (quota : Quota) (required : UInt64)
    (needed : Nat) : Prop where
  took : journal.gathering.Took poll quota required journal.accepted
  needed_eq : journal.gathering.required = .ok needed
  held : ∀ v ∈ journal.verdicts, v.held <+: journal.accepted
  seen_eq : journal.gathering.confirmations.seen.toNat = (late needed journal.verdicts).length
  late_eq : ∀ k v, (late needed journal.verdicts)[k]? = some v →
    v.decision = if required.toNat ≤ k then .reached (collected v.held) else .pending
  early : ∀ v ∈ journal.verdicts, v.held.length < needed →
    v.decision = if poll.participants.size < needed then .noMajority else .pending

theorem decides_ofContext {quota : Quota} {roundId : String} {allowed : κ}
    {context : RoundContext κ} {opened : Gathering P κ} {needed : Nat}
    (h : ofContext quota roundId allowed context = .ok opened)
    (hneeded : opened.required = .ok needed) :
    Decides ⟨opened, [], []⟩ opened.poll quota context.requiredConfirmations needed := by
  obtain ⟨poll, _, rfl⟩ := ofContext_eq_ok_iff.1 h
  refine ⟨⟨rfl, rfl, rfl, .nil poll, rfl⟩, hneeded, ?_, rfl, ?_, ?_⟩
  · intro v hv
    cases hv
  · intro k v hv
    cases hv
  · intro v hv
    cases hv

namespace Decides
variable {journal next : Journal P κ} {poll : Poll κ} {quota : Quota} {required : UInt64}
  {needed : Nat}

theorem process (h : Decides journal poll quota required needed) (tx : Transaction P) :
    Decides (journal.process tx) poll quota required needed := by
  have htook := h.took.processed tx
  rw [Journal.process] at htook ⊢
  cases hprocess : journal.gathering.process tx with
  | error e => exact h
  | ok after =>
    rw [hprocess] at htook
    obtain ⟨-, rfl⟩ := process_eq_ok_iff.1 hprocess
    refine ⟨htook, ?_, ?_, h.seen_eq, h.late_eq, h.early⟩
    · exact (required_congr rfl rfl).trans h.needed_eq
    · exact fun v hv => (h.held v hv).trans (List.prefix_append _ _)

theorem size_eq (h : Decides journal poll quota required needed) :
    journal.gathering.collection.size = journal.accepted.length := by
  rw [h.took.collection_eq, h.took.took.size_collected]

/-- A new question heard all that has been accepted. -/
theorem held_concat (h : Decides journal poll quota required needed)
    (decision : Decision (SortedMap String P)) :
    ∀ v ∈ journal.verdicts ++ [⟨journal.accepted, decision⟩], v.held <+: journal.accepted := by
  intro v hv
  rcases List.mem_append.1 hv with hold | hnew
  · exact h.held v hold
  · exact ⟨[], by rw [List.mem_singleton.1 hnew, List.append_nil]⟩

/-- Before the quota is in, nothing is counted, and the answer depends on the number of participants
only. -/
theorem decide_early (h : Decides journal poll quota required needed)
    (hshort : journal.accepted.length < needed) :
    ∃ next, journal.call .decide = .ok next ∧ Decides next poll quota required needed := by
  have hdecide := decide_of_short h.needed_eq (h.size_eq ▸ hshort)
  refine ⟨_, Journal.call_decide hdecide, h.took, h.needed_eq, h.held_concat _, ?_, ?_, ?_⟩
  · rw [late_concat, if_neg (Nat.not_le_of_lt hshort), List.append_nil]
    exact h.seen_eq
  · rw [late_concat, if_neg (Nat.not_le_of_lt hshort), List.append_nil]
    exact h.late_eq
  · intro v hv hfew
    rcases List.mem_append.1 hv with hold | hnew
    · exact h.early v hold hfew
    · rw [List.mem_singleton.1 hnew]
      by_cases henough : needed ≤ poll.participants.size
      · rw [if_pos (h.took.isPossibleAt_iff.2 henough), if_neg (Nat.not_lt_of_le henough)]
      · rw [if_neg (mt h.took.isPossibleAt_iff.1 henough), if_pos (Nat.lt_of_not_le henough)]

/-- Past it, every question is counted, and the answer depends on the count only. -/
theorem decide_late {confirmations : Confirmations}
    (h : Decides journal poll quota required needed) (hlate : needed ≤ journal.accepted.length)
    (htick : journal.gathering.confirmations.tick = .ok confirmations) :
    ∃ next, journal.call .decide = .ok next ∧ Decides next poll quota required needed := by
  have hdecide := decide_of_reached h.needed_eq (h.size_eq.symm ▸ hlate)
  rw [htick] at hdecide
  obtain ⟨hrequired, hseen⟩ := Confirmations.tick_eq_ok_iff.1 htick
  have hcomplete : confirmations.isComplete =
      Decidable.decide (required.toNat ≤ (late needed journal.verdicts).length) := by
    rw [Confirmations.isComplete, hrequired, h.took.required_eq, hseen, h.seen_eq]
    exact decide_eq_decide.2 Nat.lt_succ_iff
  refine ⟨_, Journal.call_decide hdecide, ?_, ?_, h.held_concat _, ?_, ?_, ?_⟩
  · exact ⟨h.took.poll_eq, h.took.quota_eq, hrequired.trans h.took.required_eq, h.took.took,
      h.took.collection_eq⟩
  · exact (required_congr rfl rfl).trans h.needed_eq
  · rw [late_concat, if_pos hlate, List.length_append, List.length_singleton, ← h.seen_eq]
    exact hseen
  · intro k v hv
    rw [late_concat, if_pos hlate] at hv
    rcases Nat.lt_trichotomy k (late needed journal.verdicts).length with hk | rfl | hk
    · rw [List.getElem?_append_left hk] at hv
      exact h.late_eq k v hv
    · rw [List.getElem?_concat_length, Option.some.injEq] at hv
      rw [← hv, hcomplete, h.took.collection_eq]
      simp only [decide_eq_true_eq]
    · rw [List.getElem?_eq_none (by rw [List.length_append, List.length_singleton]; omega)] at hv
      cases hv
  · intro v hv hfew
    rcases List.mem_append.1 hv with hold | hnew
    · exact h.early v hold hfew
    · rw [List.mem_singleton.1 hnew] at hfew
      exact absurd hfew (Nat.not_lt_of_le hlate)

/-- The one call that gives no answer is the question that no longer fits the counter. -/
theorem exists_call (h : Decides journal poll quota required needed) (c : Call P) :
    (∃ next, journal.call c = .ok next ∧ Decides next poll quota required needed) ∨
      c = .decide ∧ needed ≤ journal.accepted.length ∧
        (late needed journal.verdicts).length + 1 = UInt64.size ∧
        journal.call c = .error .add := by
  cases c with
  | process tx => exact .inl ⟨_, rfl, h.process tx⟩
  | decide =>
    by_cases hlate : needed ≤ journal.accepted.length
    · have hlt := Word.toNat_lt_size journal.gathering.confirmations.seen
      by_cases hfits : journal.gathering.confirmations.seen.toNat + 1 < UInt64.size
      · obtain ⟨confirmations, htick⟩ := Confirmations.exists_tick hfits
        exact .inl (h.decide_late hlate htick)
      · have hfull : journal.gathering.confirmations.seen.toNat + 1 = UInt64.size := by omega
        refine .inr ⟨rfl, hlate, h.seen_eq ▸ hfull, ?_⟩
        rw [Journal.call, decide_of_reached h.needed_eq (h.size_eq.symm ▸ hlate),
          Confirmations.tick_eq_error hfull]
        rfl
    · exact .inl (h.decide_early (Nat.lt_of_not_le hlate))

theorem call {c : Call P} (h : Decides journal poll quota required needed)
    (hcall : journal.call c = .ok next) : Decides next poll quota required needed := by
  rcases h.exists_call c with ⟨answer, hanswer, hafter⟩ | ⟨-, -, -, herror⟩
  · cases hcall.symm.trans hanswer
    exact hafter
  · cases hcall.symm.trans herror

/-- A verdict past the quota has heard everyone, if everyone is needed. -/
theorem domain_eq {v : Verdict P} (h : Decides journal poll quota required needed)
    (hneeded : needed = poll.participants.size) (hv : v ∈ journal.verdicts)
    (hlate : needed ≤ v.held.length) :
    (collected v.held).domain = poll.participants.domain := by
  obtain ⟨more, hmore⟩ := h.held v hv
  have htook : poll.Took v.held := Poll.Took.of_append (hmore.symm ▸ h.took.took)
  apply htook.domain_eq
  rw [htook.size_collected, ← hneeded]
  exact hlate

theorem everyone {v : Verdict P} (h : Decides journal poll quota required needed)
    (hneeded : needed = poll.participants.size) (hv : v ∈ journal.verdicts) :
    v.decision ≠ .noMajority ∧ ∀ outcome, v.decision = .reached outcome →
      outcome = collected v.held ∧ outcome.domain = poll.participants.domain := by
  by_cases hlate : needed ≤ v.held.length
  · have hmem : v ∈ late needed journal.verdicts := List.mem_filter.2 ⟨hv, decide_eq_true hlate⟩
    obtain ⟨k, hk⟩ := List.mem_iff_getElem?.1 hmem
    rw [h.late_eq k v hk]
    by_cases hdone : required.toNat ≤ k
    · rw [if_pos hdone]
      refine ⟨by rintro ⟨⟩, ?_⟩
      rintro outcome ⟨⟩
      exact ⟨rfl, h.domain_eq hneeded hv hlate⟩
    · rw [if_neg hdone]
      exact ⟨by rintro ⟨⟩, by rintro outcome ⟨⟩⟩
  · rw [h.early v hv (Nat.lt_of_not_le hlate), if_neg (Nat.not_lt_of_le (Nat.le_of_eq hneeded))]
    exact ⟨by rintro ⟨⟩, by rintro outcome ⟨⟩⟩

end Decides

/-! ## Any run -/

omit [Payload P κ] [DecidableEq κ] [Named κ] in
theorem exists_required {quota : Quota} {roundId : String} {allowed : κ}
    {context : RoundContext κ} {opened : Gathering P κ}
    (hopen : ofContext quota roundId allowed context = .ok opened)
    (hmax : quota = .threshold → context.params.maxParticipants.toNat < 2 ^ 63) :
    ∃ needed, opened.required = .ok needed ∧
      (quota = .threshold → context.params.threshold = .ok needed) ∧
      (quota = .everyone → needed = opened.poll.participants.size) := by
  obtain ⟨poll, hpoll, rfl⟩ := ofContext_eq_ok_iff.1 hopen
  obtain ⟨participants, -, rfl⟩ := Poll.ofContext_eq_ok_iff.1 hpoll
  cases quota with
  | threshold =>
    obtain ⟨threshold, ht⟩ := ConsensusParams.exists_threshold (hmax rfl)
    exact ⟨threshold, ht, fun _ => ht, nofun⟩
  | everyone => exact ⟨participants.size, rfl, nofun, fun _ => rfl⟩

theorem decisions_are_exact {quota : Quota} {roundId : String} {allowed : κ}
    {context : RoundContext κ} {opened : Gathering P κ} {calls : List (Call P)}
    {journal : Journal P κ} (hopen : ofContext quota roundId allowed context = .ok opened)
    (hmax : quota = .threshold → context.params.maxParticipants.toNat < 2 ^ 63)
    (hrun : opened.run calls = .ok journal) :
    ∃ needed, opened.required = .ok needed ∧
      (quota = .threshold → context.params.threshold = .ok needed) ∧
      (quota = .everyone → needed = opened.poll.participants.size) ∧
      journal.gathering.collection = collected journal.accepted ∧
      (collected journal.accepted).size = journal.accepted.length ∧
      (collected journal.accepted).domain ⊆ opened.poll.participants.domain ∧
      journal.gathering.confirmations.seen.toNat = (late needed journal.verdicts).length ∧
      (∀ k v, (late needed journal.verdicts)[k]? = some v →
        v.decision = if context.requiredConfirmations.toNat ≤ k
          then .reached (collected v.held) else .pending) ∧
      (∀ v ∈ journal.verdicts, v.held.length < needed →
        v.decision = if opened.poll.participants.size < needed then .noMajority else .pending) ∧
      (quota = .everyone → ∀ v ∈ journal.verdicts, v.decision ≠ .noMajority ∧
        ∀ outcome, v.decision = .reached outcome →
          outcome = collected v.held ∧ outcome.domain = opened.poll.participants.domain) ∧
      ∀ c, (∃ next, journal.call c = .ok next) ∨
        c = .decide ∧ needed ≤ journal.accepted.length ∧
          (late needed journal.verdicts).length + 1 = 2 ^ 64 ∧ journal.call c = .error .add := by
  obtain ⟨needed, hneeded, hthreshold, hall⟩ := exists_required hopen hmax
  have hdecides : Decides journal opened.poll quota context.requiredConfirmations needed :=
    Checked.holds_of_foldlM (Decides · opened.poll quota context.requiredConfirmations needed)
      (fun _ _ _ => Decides.call) (decides_ofContext hopen hneeded) hrun
  refine ⟨needed, hneeded, hthreshold, hall, hdecides.took.collection_eq,
    hdecides.took.took.size_collected, hdecides.took.took.senders_subset, hdecides.seen_eq,
    hdecides.late_eq, hdecides.early, ?_, ?_⟩
  · intro heveryone v hv
    exact hdecides.everyone (hall heveryone) hv
  · intro c
    rcases hdecides.exists_call c with ⟨next, hnext, -⟩ | hfull
    · exact .inl ⟨next, hnext⟩
    · exact .inr hfull

section Instance
open PriceOracle Ballot

def gatheredByFour : Gathering PriceOracle.Payload Kind where
  poll := openedByFour.poll
  quota := .threshold
  collection := ∅
  confirmations := .ofRequired 1

/-- One block of confirmation: a question too early, three payloads and a second one of a sender, and
a late payload in between. -/
def questionsAmongFour : List (Call PriceOracle.Payload) :=
  [.decide, .process ⟨"a", zeroEstimate⟩, .process ⟨"a", oneEstimate⟩,
    .process ⟨"b", oneEstimate⟩, .process ⟨"c", negativeZeroEstimate⟩, .decide,
    .process ⟨"d", oneEstimate⟩, .decide, .decide]

theorem decisions_are_exact_for_four :
    fourParticipants.params.maxParticipants.toNat < 2 ^ 63 ∧
      ∃ journal, gatheredByFour.run questionsAmongFour = .ok journal ∧
        (collected journal.accepted).size = 4 ∧ (late 3 journal.verdicts).length = 3 ∧
        (∀ k v, (late 3 journal.verdicts)[k]? = some v →
          v.decision = if 1 ≤ k then .reached (collected v.held) else .pending) ∧
        ∀ v ∈ journal.verdicts, v.held.length < 3 → v.decision = .pending := by
  have hmax : fourParticipants.params.maxParticipants.toNat < 2 ^ 63 := by decide
  have hrun : (gatheredByFour.run questionsAmongFour).map
      (fun journal => (journal.accepted.length, (late 3 journal.verdicts).length)) = .ok (4, 3) := by
    decide +kernel
  obtain ⟨journal, hjournal, hcounts⟩ := Checked.map_eq_ok_iff.1 hrun
  obtain ⟨haccepted, hlate⟩ := Prod.mk.inj hcounts
  have hopen : ofContext .threshold "estimate_consensus" .estimate fourParticipants =
      .ok gatheredByFour := rfl
  obtain ⟨needed, -, hthreshold, -, -, hsize, -, -, hexact, hearly, -⟩ :=
    decisions_are_exact hopen (fun _ => hmax) hjournal
  have hthree : fourParticipants.params.threshold = .ok 3 := by decide
  cases hthree.symm.trans (hthreshold rfl)
  exact ⟨hmax, journal, hjournal, hsize.trans haccepted, hlate, hexact, hearly⟩

end Instance

end QuorumRounds.Gathering
