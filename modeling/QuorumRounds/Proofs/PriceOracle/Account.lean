import QuorumRounds.Proofs.PriceOracle.Running
import QuorumRounds.Proofs.Replica.Endings
import QuorumRounds.Proofs.Store.Window

/-! # What the store owes to the rounds that have ended

`Account settings participants endings store`: the number of the period counts the resets that were
agreed on, a window of periods is held, the participants are those of the setup, and the estimate is
the one that was agreed on last. Every outcome of a round keeps the account (`Account.outcome`), and
so does a round that ends without a result (`Account.unchanged`). -/

namespace QuorumRounds.PriceOracle
set_option autoImplicit false

abbrev OracleEnding := Ending RoundKind Event

/-- The rounds of this kind that have ended with a result. -/
def doneIn (kind : RoundKind) (endings : List OracleEnding) : List OracleEnding :=
  endings.filter fun e => e.kind = kind ∧ e.event = .done

section Endings
variable {kind other : RoundKind} {event : Event} (endings : List OracleEnding) (result : Store)

theorem doneIn_done :
    doneIn kind (endings ++ [⟨kind, .done, result⟩]) =
      doneIn kind endings ++ [⟨kind, .done, result⟩] := by
  rw [doneIn, List.filter_append, List.filter_cons_of_pos (by simp), List.filter_nil, doneIn]

theorem doneIn_of_event (h : event ≠ .done) :
    doneIn kind (endings ++ [⟨other, event, result⟩]) = doneIn kind endings := by
  rw [doneIn, List.filter_append, List.filter_cons_of_neg (by simp [h]), List.filter_nil,
    List.append_nil, doneIn]

theorem doneIn_of_kind (h : other ≠ kind) :
    doneIn kind (endings ++ [⟨other, event, result⟩]) = doneIn kind endings := by
  rw [doneIn, List.filter_append, List.filter_cons_of_neg (by simp [h]), List.filter_nil,
    List.append_nil, doneIn]

end Endings

/-! ## The store -/

/-- A store in which only carried keys have been written, each once. -/
def FreshlyOpened (store : Store) : Prop :=
  ∀ key, store.history? key =
    if key ∈ crossPeriodKeys then (store.get? key).map ([·]) else none

structure Account (settings : Settings) (participants : SortedSet String)
    (endings : List OracleEnding) (store : Store) : Prop where
  setup_eq : store.setup = Settings.setupData participants.toList
  period_eq : store.period.toNat = (doneIn .reset endings).length
  window : store.Window settings.periodHistoryDepth.toNat
  participants_eq : store.get? participantsKey = some (participantsValue participants.toList)
  estimate_eq : store.get? estimateKey =
    (doneIn .estimateConsensus endings).getLast?.bind fun e => e.result.get? estimateKey
  estimated : ∀ e ∈ doneIn .estimateConsensus endings,
    ∃ price, e.result.get? estimateKey = some (.float price)
  opened : ∀ earlier result, endings = earlier ++ [⟨.reset, .done, result⟩] →
    store = result ∧ FreshlyOpened store

namespace Account
variable {settings : Settings} {participants : SortedSet String} {endings : List OracleEnding}
  {store : Store}

theorem ofSetup (settings : Settings) (participants : SortedSet String) :
    Account settings participants []
      (Store.ofSetup (Settings.setupData participants.toList)) where
  setup_eq := rfl
  period_eq := rfl
  window := Store.window_ofSetup _ _
  participants_eq := by rw [Store.get?_ofSetup, Settings.setupData, SortedMap.get?_insert, if_pos rfl]
  estimate_eq := by
    rw [Store.get?_ofSetup, Settings.setupData, SortedMap.get?_insert, if_neg (by decide)]
    rfl
  estimated := nofun
  opened := by
    intro earlier result heq
    exact absurd heq.symm (List.append_ne_nil_of_right_ne_nil _ (List.cons_ne_nil _ _))

/-- A round that ends without a result leaves the store as it is. -/
theorem unchanged (h : Account settings participants endings store) (kind : RoundKind)
    {event : Event} (hevent : event ≠ .done) :
    Account settings participants (endings ++ [⟨kind, event, store⟩]) store where
  setup_eq := h.setup_eq
  period_eq := by
    rw [doneIn_of_event _ _ hevent]
    exact h.period_eq
  window := h.window
  participants_eq := h.participants_eq
  estimate_eq := by
    rw [doneIn_of_event _ _ hevent]
    exact h.estimate_eq
  estimated := by
    rw [doneIn_of_event _ _ hevent]
    exact h.estimated
  opened := by
    intro earlier result heq
    have hlast := (List.append_inj' heq rfl).2
    cases hlast
    exact absurd rfl hevent

/-- A result that is neither an estimate nor a new period. -/
theorem written (h : Account settings participants endings store) {kind : RoundKind} {key : String}
    {value : Value} (hreset : kind ≠ .reset) (hestimate : kind ≠ .estimateConsensus)
    (hkey : key ≠ estimateKey)
    (hvalue : key = participantsKey → value = participantsValue participants.toList) :
    Account settings participants
      (endings ++ [⟨kind, .done, store.update [(key, value)]⟩]) (store.update [(key, value)]) where
  setup_eq := h.setup_eq
  period_eq := by
    rw [doneIn_of_kind _ _ hreset]
    exact h.period_eq
  window := h.window.update _
  participants_eq := by
    rw [Store.get?_update]
    split
    case isTrue hsame => rw [hvalue hsame.symm]
    case isFalse => exact h.participants_eq
  estimate_eq := by
    rw [doneIn_of_kind _ _ hestimate, Store.get?_update,
      if_neg hkey.symm]
    exact h.estimate_eq
  estimated := by
    rw [doneIn_of_kind _ _ hestimate]
    exact h.estimated
  opened := by
    intro earlier result heq
    have hlast := (List.append_inj' heq rfl).2
    cases hlast
    exact absurd rfl hreset

theorem agreed (h : Account settings participants endings store) (price : Binary64) :
    Account settings participants
      (endings ++ [⟨.estimateConsensus, .done, store.update [(estimateKey, .float price)]⟩])
      (store.update [(estimateKey, .float price)]) where
  setup_eq := h.setup_eq
  period_eq := by
    rw [doneIn_of_kind _ _ (by decide)]
    exact h.period_eq
  window := h.window.update _
  participants_eq := by
    rw [Store.get?_update, if_neg (by decide)]
    exact h.participants_eq
  estimate_eq := by
    rw [doneIn_done, List.getLast?_concat]
    rfl
  estimated := by
    intro e he
    rw [doneIn_done] at he
    rcases List.mem_append.1 he with hold | hnew
    · exact h.estimated e hold
    · rw [List.mem_singleton.1 hnew]
      exact ⟨price, by rw [Store.get?_update, if_pos rfl]⟩
  opened := by
    intro earlier result heq
    have hlast := (List.append_inj' heq rfl).2
    cases hlast

/-- A new period takes over the participants and the estimate, and nothing else. -/
theorem reopened (h : Account settings participants endings store) {next : Store}
    (hcreate : store.create crossPeriodKeys = .ok next) :
    Account settings participants
      (endings ++ [⟨.reset, .done, next.cleanup settings.periodHistoryDepth.toNat none⟩])
      (next.cleanup settings.periodHistoryDepth.toNat none) := by
  have hparticipants : (next.cleanup settings.periodHistoryDepth.toNat none).get? participantsKey =
      some (participantsValue participants.toList) := by
    rw [Store.get?_cleanup]
    exact Store.get?_create hcreate (by simp [crossPeriodKeys]) h.participants_eq
  have hsetup : ∀ key, key ≠ participantsKey → store.setup.get? key = none := by
    intro key hkey
    rw [h.setup_eq, Settings.setupData, SortedMap.get?_insert, if_neg hkey]
    rfl
  have hhistory : ∀ key, (next.cleanup settings.periodHistoryDepth.toNat none).history? key =
      ((if key ∈ crossPeriodKeys then store.get? key else none).or
        (store.setup.get? key)).map ([·]) := by
    intro key
    rw [Store.history?_cleanup, Store.history?_create hcreate]
  refine ⟨?_, ?_, h.window.opened hcreate, hparticipants, ?_, ?_, ?_⟩
  · rw [Store.setup_cleanup, (Store.create_eq_ok hcreate).2]
    exact h.setup_eq
  · rw [Store.period_cleanup, Word.succ_eq_ok_iff.1 (Store.create_eq_ok hcreate).1, h.period_eq,
      doneIn_done, List.length_append]
    rfl
  · rw [doneIn_of_kind _ _ (by decide), ← h.estimate_eq, Store.get?_of_history (hhistory _),
      if_pos (by simp [crossPeriodKeys]), hsetup _ (by decide), Option.or_none]
  · rw [doneIn_of_kind _ _ (by decide)]
    exact h.estimated
  · intro earlier result heq
    cases (List.append_inj' heq rfl).2
    refine ⟨rfl, fun key => ?_⟩
    by_cases hkey : key ∈ crossPeriodKeys
    · rw [if_pos hkey, Store.get?_of_history (hhistory key), hhistory]
    · have hother : key ≠ participantsKey := by
        rintro rfl
        exact hkey (by simp [crossPeriodKeys])
      rw [if_neg hkey, hhistory, if_neg hkey, hsetup key hother]
      rfl

/-- Whatever a round hands on. -/
theorem outcome {poll : Poll Kind} {taken : List (Transaction Payload)} {kind : RoundKind}
    {event : Event} (h : Account settings poll.participants endings poll.store)
    (htook : poll.Took taken)
    (houtcome : Round.Outcome settings.periodHistoryDepth poll taken kind event store) :
    Account settings poll.participants (endings ++ [⟨kind, event, store⟩]) store := by
  cases houtcome with
  | noMajority => exact h.unchanged kind (by decide)
  | registered heveryone =>
    refine h.written (by decide) (by decide) (by decide) fun _ => ?_
    rw [SortedSet.keys_eq_toList (htook.domain_eq heveryone)]
  | observed => exact h.written (by decide) (by decide) (by decide) fun heq => absurd heq (by decide)
  | estimated => exact h.agreed _
  | reset hcreate => exact h.reopened hcreate

end Account

end QuorumRounds.PriceOracle
