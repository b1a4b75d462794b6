import QuorumRounds.Proofs.Store.Reads

/-! # Which periods a store holds

Whatever is done to a store, the periods that it holds are numbered without a gap up to the current
one (`Spans`). A store that is cleaned up whenever a period is opened holds a window of them: the
current one and those just before it, `depth` of them, or all if there have not been so many yet. -/

namespace QuorumRounds.Store
set_option autoImplicit false

variable {depth : Nat} {store : Store}

theorem mem_heldPeriods {period : UInt64} :
    period ∈ store.heldPeriods ↔ store.periods.contains period = true :=
  SortedMap.contains_iff_mem_keys.symm

theorem mem_heldPeriods_cleanup {number : UInt64} {periodDepth : Nat} {historyDepth : Option Nat} :
    number ∈ (store.cleanup periodDepth historyDepth).heldPeriods ↔
      store.keepFrom periodDepth ≤ number.toNat ∧ number ∈ store.heldPeriods := by
  rw [mem_heldPeriods, mem_heldPeriods, SortedMap.contains, get?_periods_cleanup,
    SortedMap.contains]
  by_cases hkept : store.keepFrom periodDepth ≤ number.toNat
  · simp [hkept]
  · simp [hkept]

/-! ## Periods without a gap -/

/-- The periods from `first` up to the current one are held, and no others. -/
structure Spans (first : Nat) (store : Store) : Prop where
  le_period : first ≤ store.period.toNat
  mem_iff : ∀ number, number ∈ store.heldPeriods ↔
    first ≤ number.toNat ∧ number.toNat ≤ store.period.toNat

theorem spans_ofSetup (setup : SortedMap String Value) : Spans 0 (ofSetup setup) where
  le_period := Nat.zero_le _
  mem_iff := by
    intro number
    have hzero : (0 : UInt64).toNat = 0 := rfl
    have hnone : (∅ : SortedMap UInt64 Period).contains number = false := rfl
    rw [mem_heldPeriods, ofSetup, SortedMap.contains_insert, hnone, ← UInt64.toNat_inj, hzero]
    constructor
    · rintro (hnumber | hfalse)
      · omega
      · cases hfalse
    · intro hnumber
      exact .inl (by omega)

namespace Spans
variable {first : Nat}

theorem current_held (h : Spans first store) : store.period ∈ store.heldPeriods :=
  (h.mem_iff _).2 ⟨h.le_period, Nat.le_refl _⟩

theorem update (h : Spans first store) (updates : List (String × Value)) :
    Spans first (store.update updates) where
  le_period := h.le_period
  mem_iff := by
    intro number
    have hcurrent : (store.update updates).period = store.period := rfl
    rw [hcurrent, ← h.mem_iff, mem_heldPeriods, Store.update, SortedMap.contains_insert,
      ← mem_heldPeriods]
    constructor
    · rintro (rfl | hheld)
      · exact h.current_held
      · exact hheld
    · exact .inr

theorem create {next : Store} {keys : List String} (h : Spans first store)
    (hcreate : store.create keys = .ok next) : Spans first next := by
  obtain ⟨hnumber, heq⟩ := create_eq_ok hcreate
  have hnext := Word.succ_eq_ok_iff.1 hnumber
  have hle := h.le_period
  refine ⟨by omega, fun number => ?_⟩
  have hheld : number ∈ next.heldPeriods ↔ number = next.period ∨ number ∈ store.heldPeriods := by
    rw [mem_heldPeriods, mem_heldPeriods, heq]
    exact SortedMap.contains_insert _ _ _ _
  rw [hheld, h.mem_iff, ← UInt64.toNat_inj]
  omega

theorem cleanup (h : Spans first store) (periodDepth : Nat) (historyDepth : Option Nat) :
    Spans (max first (store.keepFrom periodDepth)) (store.cleanup periodDepth historyDepth) where
  le_period := by
    rw [period_cleanup]
    exact Nat.max_le.2 ⟨h.le_period, store.keepFrom_le_period periodDepth⟩
  mem_iff := by
    intro number
    rw [mem_heldPeriods_cleanup, h.mem_iff, period_cleanup]
    omega

end Spans

/-! ## Windows -/

/-- The window is never empty: a depth of zero counts as one. -/
def Window (depth : Nat) (store : Store) : Prop :=
  ∀ period, period ∈ store.heldPeriods ↔
    store.period.toNat - (max depth 1 - 1) ≤ period.toNat ∧ period.toNat ≤ store.period.toNat

theorem Window.spans (h : Window depth store) : Spans (store.keepFrom depth) store :=
  ⟨store.keepFrom_le_period depth, h⟩

theorem window_ofSetup (depth : Nat) (setup : SortedMap String Value) :
    Window depth (ofSetup setup) := by
  have hzero : (ofSetup setup).period.toNat - (max depth 1 - 1) = 0 := Nat.zero_sub _
  intro period
  rw [hzero]
  exact (spans_ofSetup setup).mem_iff period

theorem Window.update (h : Window depth store) (updates : List (String × Value)) :
    Window depth (store.update updates) := (h.spans.update updates).mem_iff

/-- A full window forgets its oldest period when a new one is opened. -/
theorem Window.opened {next : Store} {keys : List String} (h : Window depth store)
    (hcreate : store.create keys = .ok next) : Window depth (next.cleanup depth none) := by
  have hnext := Word.succ_eq_ok_iff.1 (create_eq_ok hcreate).1
  have hlater : max (store.keepFrom depth) (next.keepFrom depth) = next.keepFrom depth := by
    rw [keepFrom, keepFrom]
    omega
  have hspans := (h.spans.create hcreate).cleanup depth none
  rw [hlater] at hspans
  intro period
  rw [hspans.mem_iff, period_cleanup, keepFrom]

end QuorumRounds.Store
