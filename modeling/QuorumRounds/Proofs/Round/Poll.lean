import QuorumRounds.Proofs.SortedMap.Domain
import QuorumRounds.Round.Poll

/-! # What a poll lets pass

* `Poll.check_eq_ok_iff`: kind, layout and membership, and nothing else.
* `Poll.Took poll taken`: the transactions in `taken` have passed the poll, and no two of them have
  one sender. Their payloads by sender are `collected taken`.

A round that takes transactions holds what it has taken, in some form; what it has taken is always
such a list. -/

namespace QuorumRounds
set_option autoImplicit false

variable {P κ : Type} [Ord κ] [Payload P κ]

/-- The sender and payload of each transaction. -/
def ballots (taken : List (Transaction P)) : List (String × P) :=
  taken.map fun tx => (tx.sender, tx.payload)

/-- The payloads by sender. -/
def collected (taken : List (Transaction P)) : SortedMap String P := .ofList (ballots taken)

omit [Payload P κ] in
theorem map_fst_ballots (taken : List (Transaction P)) :
    (ballots taken).map Prod.fst = taken.map (·.sender) := by
  rw [ballots, List.map_map]
  rfl

omit [Payload P κ] in
theorem collected_concat (taken : List (Transaction P)) (tx : Transaction P) :
    collected (taken ++ [tx]) = (collected taken).insert tx.sender tx.payload := by
  rw [collected, ballots, List.map_append]
  exact SortedMap.ofList_concat _ _

omit [Payload P κ] in
theorem domain_collected (taken : List (Transaction P)) :
    (collected taken).domain = (taken.map (·.sender)).toFinset := by
  rw [collected, SortedMap.domain_ofList, map_fst_ballots]

omit [Payload P κ] in
theorem contains_collected {taken : List (Transaction P)} {sender : String} :
    (collected taken).contains sender = true ↔ sender ∈ taken.map (·.sender) := by
  rw [← SortedMap.mem_domain, domain_collected, List.mem_toFinset]

namespace Poll

omit [Payload P κ] in
theorem ofContext_eq_ok_iff {roundId : String} {allowed : κ} {context : RoundContext κ}
    {poll : Poll κ} :
    ofContext roundId allowed context = .ok poll ↔
      ∃ participants, context.store.participants = .ok participants ∧
        poll = ⟨roundId, allowed, context.store, context.params, participants,
          context.registry⟩ := by
  unfold ofContext
  cases context.store.participants with
  | error e => simp [Except.map]
  | ok participants => simp [Except.map, eq_comm]

variable [DecidableEq κ] [Named κ] {poll : Poll κ} {tx : Transaction P}

theorem check_eq_ok_iff :
    poll.check tx = .ok () ↔
      Payload.kind tx.payload = poll.allowed ∧
        (∃ shape, poll.registry.shapes.get? poll.allowed = some shape ∧
          shape.check (Payload.data tx.payload) = .ok ()) ∧
        poll.participants.contains tx.sender = true := by
  unfold check
  by_cases hkind : Payload.kind tx.payload = poll.allowed
  · simp only [hkind, if_true, true_and]
    cases hshape : poll.registry.shapes.get? poll.allowed with
    | none => simp
    | some shape =>
      cases hlayout : shape.check (Payload.data tx.payload) with
      | error reason => simp [hlayout]
      | ok _ =>
        by_cases hmember : poll.participants.contains tx.sender = true
        · simp [hlayout, hmember]
        · simp [hlayout, hmember]
  · simp [hkind]

structure Took (poll : Poll κ) (taken : List (Transaction P)) : Prop where
  senders_nodup : (taken.map (·.sender)).Nodup
  passed : ∀ tx ∈ taken, poll.check tx = .ok ()

namespace Took
variable {taken : List (Transaction P)}

theorem nil (poll : Poll κ) : poll.Took ([] : List (Transaction P)) where
  senders_nodup := List.nodup_nil
  passed := by
    intro tx htx
    cases htx

theorem concat (h : poll.Took taken) (hpass : poll.check tx = .ok ())
    (hnew : (collected taken).contains tx.sender = false) : poll.Took (taken ++ [tx]) where
  senders_nodup := by
    rw [← Bool.not_eq_true, contains_collected] at hnew
    rw [List.map_append, List.nodup_append]
    refine ⟨h.senders_nodup, List.nodup_singleton _, ?_⟩
    intro s hs u hu heq
    rw [List.map_singleton, List.mem_singleton] at hu
    exact hnew (hu ▸ heq ▸ hs)
  passed := by
    intro u hu
    rcases List.mem_append.1 hu with hu | hu
    · exact h.passed u hu
    · exact List.mem_singleton.1 hu ▸ hpass

theorem of_append {more : List (Transaction P)} (h : poll.Took (taken ++ more)) : poll.Took taken where
  senders_nodup := by
    have hnodup := h.senders_nodup
    rw [List.map_append, List.nodup_append] at hnodup
    exact hnodup.1
  passed := fun tx htx => h.passed tx (List.mem_append_left _ htx)

theorem get?_collected (h : poll.Took taken) {sender : String} {payload : P} :
    (collected taken).get? sender = some payload ↔ ⟨sender, payload⟩ ∈ taken := by
  have hnodup := h.senders_nodup
  rw [← map_fst_ballots] at hnodup
  rw [collected, SortedMap.get?_ofList_of_nodup hnodup, ballots, List.mem_map]
  constructor
  · rintro ⟨tx, htx, heq⟩
    obtain ⟨rfl, rfl⟩ := Prod.mk.inj heq
    exact htx
  · intro hmem
    exact ⟨_, hmem, rfl⟩

theorem perm_entries (h : poll.Took taken) : (ballots taken).Perm (collected taken).entries := by
  have hnodup := h.senders_nodup
  rw [← map_fst_ballots] at hnodup
  have hkeys : ((collected taken).entries.map Prod.fst).Nodup := (collected taken).nodup_keys
  rw [List.perm_ext_iff_of_nodup (hnodup.of_map _) (hkeys.of_map _)]
  rintro ⟨s, p⟩
  rw [SortedMap.mem_entries_iff, collected, SortedMap.get?_ofList_of_nodup hnodup]

theorem size_collected (h : poll.Took taken) : (collected taken).size = taken.length := by
  rw [← SortedMap.card_domain, domain_collected, List.toFinset_card_of_nodup h.senders_nodup,
    List.length_map]

theorem senders_subset (h : poll.Took taken) :
    (collected taken).domain ⊆ poll.participants.domain := by
  intro s hs
  rw [domain_collected, List.mem_toFinset] at hs
  obtain ⟨tx, htx, rfl⟩ := List.mem_map.1 hs
  exact SortedMap.mem_domain.2 (check_eq_ok_iff.1 (h.passed tx htx)).2.2

theorem size_le (h : poll.Took taken) : (collected taken).size ≤ poll.participants.size := by
  rw [← SortedMap.card_domain, ← SortedMap.card_domain]
  exact Finset.card_le_card h.senders_subset

/-- As many senders as participants are all the participants. -/
theorem domain_eq (h : poll.Took taken)
    (hall : poll.participants.size ≤ (collected taken).size) :
    (collected taken).domain = poll.participants.domain := by
  apply Finset.eq_of_subset_of_card_le h.senders_subset
  rw [SortedMap.card_domain, SortedMap.card_domain]
  exact hall

end Took

end Poll

end QuorumRounds
