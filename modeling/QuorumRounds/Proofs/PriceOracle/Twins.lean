import QuorumRounds.Proofs.Machine.Alike
import QuorumRounds.Proofs.PriceOracle.Outlines
import QuorumRounds.Proofs.PriceOracle.Running

/-! # Rounds that have taken the same transactions

Two rounds of one machine that have one outline are twins (`Twin`): they refuse the same transactions
for the same reasons, they decide in the same block, and the stores that they hand on differ in the
signs of zero estimates alone (`Twin.endBlock`), so that the rounds that follow are twins again
(`twins`). Which of two transactions comes first makes no difference to twins (`twins_commute`). -/

namespace QuorumRounds.PriceOracle
set_option autoImplicit false
open Checked (Both)

/-- The round has taken these transactions, and asks the participants of its machine. -/
structure Sound (settings : Settings) (config : Config RoundKind) (participants : SortedSet String)
    (kind : RoundKind) (poll : Poll Kind) (taken : List (Transaction Payload)) (round : Round) :
    Prop where
  took : round.Took settings.periodHistoryDepth poll (config.requiredConfirmations kind) taken kind
  allowed_eq : poll.allowed = kind.allowed
  params_eq : poll.params = config.params
  participants_eq : poll.participants = participants
  found : poll.store.participants = .ok participants

structure Twin (settings : Settings) (config : Config RoundKind) (participants : SortedSet String)
    (a b : Round) : Prop where
  left : ∃ kind poll taken, Sound settings config participants kind poll taken a
  right : ∃ kind poll taken, Sound settings config participants kind poll taken b
  outline_eq : a.outline = b.outline

/-- Twins are built from such stores, and hand such stores on. -/
def SameStore (participants : SortedSet String) (s t : Store) : Prop :=
  unsigned s = unsigned t ∧ s.participants = .ok participants

variable {settings : Settings} {config : Config RoundKind} {participants : SortedSet String}

theorem SameStore.participants_eq {s t : Store} (h : SameStore participants s t) :
    t.participants = .ok participants := by
  rw [← participants_unsigned, ← h.1, participants_unsigned]
  exact h.2

namespace Twin
variable {a b c : Round}

theorem symm (h : Twin settings config participants a b) : Twin settings config participants b a :=
  ⟨h.right, h.left, h.outline_eq.symm⟩

theorem trans (hab : Twin settings config participants a b)
    (hbc : Twin settings config participants b c) : Twin settings config participants a c :=
  ⟨hab.left, hbc.right, hab.outline_eq.trans hbc.outline_eq⟩

theorem store (h : Twin settings config participants a b) :
    SameStore participants a.store b.store := by
  obtain ⟨kind, poll, taken, hsound⟩ := h.left
  have hpolls := congrArg Round.poll h.outline_eq
  rw [Round.poll_outline, Round.poll_outline] at hpolls
  refine ⟨congrArg (·.store) hpolls, ?_⟩
  rw [hsound.took.store_eq]
  exact hsound.found

theorem check_eq (h : Twin settings config participants a b) (tx : Transaction Payload) :
    a.check tx = b.check tx := by
  rw [← a.check_outline, h.outline_eq, b.check_outline]

theorem accept {tx : Transaction Payload} (h : Twin settings config participants a b)
    (hcheck : a.check tx = .ok (.ok ())) :
    Twin settings config participants (a.accept tx) (b.accept tx) := by
  obtain ⟨kind, poll, taken, hleft⟩ := h.left
  obtain ⟨kind', poll', taken', hright⟩ := h.right
  refine ⟨⟨kind, poll, _, { hleft with took := hleft.took.accept hcheck }⟩, ⟨kind', poll', _,
    { hright with took := hright.took.accept (h.check_eq tx ▸ hcheck) }⟩, ?_⟩
  rw [Round.outline_accept, Round.outline_accept, h.outline_eq]

/-! ## The end of a block -/

/-- Whatever twins hand on is the same, up to signs of zero estimates. -/
theorem endBlock (hsize : participants.size ≤ config.params.maxParticipants.toNat)
    (h : Twin settings config participants a b) :
    Both (fun x y =>
        Option.Rel (fun u v => SameStore participants u.1 v.1 ∧ u.2 = v.2) x.1 y.1 ∧
          Twin settings config participants x.2 y.2)
      a.endBlock b.endBlock := by
  obtain ⟨kind, poll, taken, hleft⟩ := h.left
  obtain ⟨kind', poll', taken', hright⟩ := h.right
  obtain rfl : kind = kind' := by
    rw [← hleft.took.kind_eq, ← a.kind_outline, h.outline_eq, b.kind_outline, hright.took.kind_eq]
  have hpolls : unsignedPoll poll = unsignedPoll poll' := by
    rw [← hleft.took.poll_eq, ← a.poll_outline, h.outline_eq, b.poll_outline, hright.took.poll_eq]
  have hcollected : collected taken = collected taken' := by
    rw [← hleft.took.collection_eq, ← a.collection_outline, h.outline_eq, b.collection_outline,
      hright.took.collection_eq]
  apply (Round.endBlock_outline hleft.took hright.took h.outline_eq).with_eq.mono
  rintro ⟨outcome, after⟩ ⟨outcome', after'⟩ ⟨⟨hevents, houtlines⟩, ha, hb⟩
  obtain ⟨htook, houtcome⟩ := hleft.took.endBlock hleft.allowed_eq ha
  obtain ⟨htook', houtcome'⟩ := hright.took.endBlock hright.allowed_eq hb
  refine ⟨?_, ⟨kind, poll, taken, { hleft with took := htook }⟩,
    ⟨kind, poll', taken', { hright with took := htook' }⟩, houtlines⟩
  rcases outcome with _ | ⟨store, event⟩ <;> rcases outcome' with _ | ⟨store', event'⟩
  · exact .none
  · cases hevents
  · cases hevents
  · obtain rfl : event = event' := Option.some.inj hevents
    have hresult := houtcome store event rfl
    have hresult' := houtcome' store' event rfl
    refine .some ⟨⟨?_, ?_⟩, rfl⟩
    · apply hresult.unsigned_eq hresult' hleft.took.poll_took hright.took.poll_took hpolls
        hcollected
      rw [hleft.participants_eq, hleft.params_eq]
      exact hsize
    · rw [← hleft.participants_eq]
      apply hresult.participants_eq hleft.took.poll_took
      rw [hleft.participants_eq]
      exact hleft.found

end Twin

/-! ## Machines of twins -/

theorem twins (hsize : participants.size ≤ config.params.maxParticipants.toNat) :
    Machine.Twins settings.application config (Twin settings config participants)
      (SameStore participants) unsigned where
  symm := Twin.symm
  trans := Twin.trans
  plain_eq := And.left
  store := Twin.store
  build := by
    intro machine kind s t happ hconfig hstores
    refine ⟨_, _, build_eq happ hstores.2 kind, build_eq happ hstores.participants_eq kind, ?_⟩
    rw [hconfig]
    refine ⟨⟨kind, _, [], Round.took_opened _ _ _ kind, rfl, rfl, rfl, hstores.2⟩,
      ⟨kind, _, [], Round.took_opened _ _ _ kind, rfl, rfl, rfl, hstores.participants_eq⟩, ?_⟩
    rw [Round.outline_opened, Round.outline_opened, Round.pollOf, Round.pollOf, unsignedPoll,
      unsignedPoll, hstores.1]
  check := by
    intro a b tx h
    exact h.check_eq tx
  process := by
    intro a b tx h hcheck
    refine ⟨a.accept tx, b.accept tx, Round.process_of_check hcheck, ?_, h.accept hcheck⟩
    exact Round.process_of_check (h.check_eq tx ▸ hcheck)
  endBlock := Twin.endBlock hsize

theorem processed_eq {round after : Round} {tx : Transaction Payload}
    (hcheck : round.check tx = .ok (.ok ()))
    (hprocess : RoundBehavior.process round tx = .ok (.ok (), after)) : after = round.accept tx := by
  have haccept : RoundBehavior.process round tx = .ok (.ok (), round.accept tx) :=
    Round.process_of_check hcheck
  rw [haccept] at hprocess
  cases hprocess
  rfl

theorem twins_commute :
    Machine.Commuting (Twin settings config participants) where
  overflow := fun _ herror => Round.check_eq_error herror
  check_after := by
    intro a b tx other _ hsenders hcheck hprocess
    rw [processed_eq hcheck hprocess]
    exact Round.check_accept hsenders
  process_comm := by
    intro a b c d e tx other h hsenders hcheck hcheck' hb hc hd he
    obtain rfl := processed_eq hcheck hb
    obtain rfl := processed_eq hcheck' hd
    have hafter : (a.accept tx).check other = .ok (.ok ()) :=
      (Round.check_accept hsenders).trans hcheck'
    have hafter' : (a.accept other).check tx = .ok (.ok ()) :=
      (Round.check_accept hsenders.symm).trans hcheck
    obtain rfl := processed_eq hafter hc
    obtain rfl := processed_eq hafter' he
    exact ⟨((h.accept hcheck).accept hafter).left, ((h.accept hcheck').accept hafter').left,
      Round.accept_comm hsenders⟩

end QuorumRounds.PriceOracle
