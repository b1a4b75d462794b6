import Mathlib.Data.List.Sort
import QuorumRounds.Proofs.Store.Plain
import QuorumRounds.Proofs.Store.Window

/-! # What a store holds and what it forgets

The reads of a store take a missing period and an empty history for a key that has no value. Neither
occurs: the periods that are held are numbered without a gap up to the current one, and every history
in them has a value (`WellFormed`).

Forgetting takes away from the old end only, of the periods and of the histories of the current one
(`Cleaned`), and forgetting twice is forgetting once, by the lesser depths (`cleanup_cleanup`). -/

namespace QuorumRounds
set_option autoImplicit false

/-! ## The last items of a list -/

section LastItems
variable {α : Type}

/-- The last `n` items, or all of them where there are not so many. -/
structure Latest (n : Nat) (kept all : List α) : Prop where
  suffix : kept <:+ all
  length_eq : kept.length = min n all.length

theorem latest_lastItems (n : Nat) (items : List α) : Latest n (lastItems n items) items where
  suffix := List.drop_suffix _ _
  length_eq := by
    rw [lastItems, List.length_drop]
    omega

theorem lastItems_lastItems (m n : Nat) (items : List α) :
    lastItems n (lastItems m items) = lastItems (min m n) items := by
  have hlength := (latest_lastItems m items).length_eq
  rw [lastItems, hlength, lastItems, lastItems, List.drop_drop]
  congr 1
  omega

/-- In a list that increases, a filter that lets through everything above what it lets through only
drops items from the front. -/
theorem filter_suffix {lt : α → α → Prop} {p : α → Bool} {items : List α}
    (hsorted : items.Pairwise lt) (hup : ∀ a b, lt a b → p a = true → p b = true) :
    items.filter p <:+ items := by
  induction items with
  | nil => exact List.suffix_refl _
  | cons first rest ih =>
    obtain ⟨hfirst, hrest⟩ := List.pairwise_cons.1 hsorted
    cases hp : p first with
    | true =>
      have hall : ∀ b ∈ first :: rest, p b = true := by
        intro b hb
        rcases List.mem_cons.1 hb with rfl | hb
        · exact hp
        · exact hup first b (hfirst b hb) hp
      exact ⟨[], List.filter_eq_self.2 hall⟩
    | false =>
      rw [List.filter_cons_of_neg (by rw [hp]; decide)]
      exact (ih hrest).trans (List.suffix_cons _ _)

end LastItems

namespace Store
variable {store : Store}

/-! ## What every store is like -/

/-- No history that is held is empty, in any period. -/
def Filled (store : Store) : Prop :=
  ∀ number period, store.periods.get? number = some period →
    ∀ key history, period.get? key = some history → history ≠ []

structure WellFormed (store : Store) : Prop where
  contiguous : ∃ first ≤ store.period.toNat,
    store.heldPeriods.map UInt64.toNat = List.range' first (store.period.toNat + 1 - first)
  current_held : store.period ∈ store.heldPeriods
  filled : store.Filled

theorem heldPeriods_increase (store : Store) : store.heldPeriods.Pairwise (· < ·) := by
  rw [heldPeriods, SortedMap.keys, List.pairwise_map]
  have hkeys : store.periods.entries.Pairwise fun a b => compare a.1 b.1 = .lt :=
    store.periods.keysIncrease
  exact hkeys.imp Std.compare_eq_lt.1

theorem Spans.eq_range {first : Nat} (h : Spans first store) :
    store.heldPeriods.map UInt64.toNat = List.range' first (store.period.toNat + 1 - first) := by
  have hincrease : (store.heldPeriods.map UInt64.toNat).Pairwise (· < ·) := by
    rw [List.pairwise_map]
    exact store.heldPeriods_increase.imp fun hlt => UInt64.lt_iff_toNat_lt.1 hlt
  refine hincrease.eq_of_mem_iff (List.pairwise_lt_range' 1) fun n => ?_
  have hle := h.le_period
  rw [List.mem_map, List.mem_range'_1]
  constructor
  · rintro ⟨number, hheld, rfl⟩
    have hbetween := (h.mem_iff number).1 hheld
    omega
  · intro hbetween
    have hfits : n < UInt64.size := by
      have hbound := store.period.toNat_lt_size
      omega
    have hnumber : (UInt64.ofNat n).toNat = n := UInt64.toNat_ofNat_of_lt' hfits
    refine ⟨UInt64.ofNat n, (h.mem_iff _).2 ?_, hnumber⟩
    rw [hnumber]
    omega

theorem Spans.wellFormed {first : Nat} (h : Spans first store) (hfilled : store.Filled) :
    store.WellFormed := ⟨⟨first, h.le_period, h.eq_range⟩, h.current_held, hfilled⟩

/-! ## What the operations keep -/

theorem filled_ofSetup (setup : SortedMap String Value) : (ofSetup setup).Filled := by
  intro number period hheld key history hhistory
  rw [ofSetup, SortedMap.get?_insert] at hheld
  split at hheld
  · cases hheld
    rw [seed, SortedMap.get?_mapValues, Option.map_eq_some_iff] at hhistory
    obtain ⟨value, -, rfl⟩ := hhistory
    exact List.cons_ne_nil _ _
  · cases hheld

theorem Filled.current {period : Period} (h : store.Filled) (hcurrent : store.current? = some period)
    {key : String} {history : List Value} (hhistory : period.get? key = some history) :
    history ≠ [] := h store.period period hcurrent key history hhistory

theorem Filled.update (h : store.Filled) (updates : List (String × Value)) :
    (store.update updates).Filled := by
  intro number period hheld key history hhistory
  rw [Store.update, SortedMap.get?_insert] at hheld
  split at hheld
  · cases hheld
    rw [get?_foldl_append, ← history?_eq] at hhistory
    split at hhistory
    · obtain ⟨before, hcurrent, hbefore⟩ := Option.bind_eq_some_iff.1 hhistory
      exact h.current hcurrent hbefore
    case isFalse hwritten =>
      cases hhistory
      exact fun hnil => hwritten (List.append_eq_nil_iff.1 hnil).2
  · exact h number period hheld key history hhistory

theorem Filled.create {next : Store} {keys : List String} (h : store.Filled)
    (hcreate : store.create keys = .ok next) : next.Filled := by
  intro number period hheld key history hhistory
  rw [(create_eq_ok hcreate).2, SortedMap.get?_insert] at hheld
  split at hheld
  · cases hheld
    rw [get?_carried_eq, Option.map_eq_some_iff] at hhistory
    obtain ⟨value, -, rfl⟩ := hhistory
    exact List.cons_ne_nil _ _
  · exact h number period hheld key history hhistory

theorem heldPeriods_cleanup (store : Store) (periodDepth : Nat) (historyDepth : Option Nat) :
    (store.cleanup periodDepth historyDepth).heldPeriods =
      store.heldPeriods.filter fun number => decide (store.keepFrom periodDepth ≤ number.toNat) := by
  refine (heldPeriods_increase _).eq_of_mem_iff (store.heldPeriods_increase.filter _) fun number => ?_
  rw [mem_heldPeriods_cleanup, List.mem_filter, decide_eq_true_iff, and_comm]

theorem lastValues_ne_nil {history : List Value} (hsome : history ≠ []) (historyDepth : Option Nat) :
    lastValues historyDepth history ≠ [] := by
  cases historyDepth with
  | none => exact hsome
  | some depth => exact lastItems_ne_nil hsome (Nat.le_max_right _ _)

theorem Filled.cleanup (h : store.Filled) (periodDepth : Nat) (historyDepth : Option Nat) :
    (store.cleanup periodDepth historyDepth).Filled := by
  intro number period hheld key history hhistory
  rw [get?_periods_cleanup] at hheld
  split at hheld
  · obtain ⟨before, hbefore, rfl⟩ := Option.map_eq_some_iff.1 hheld
    rw [remainder] at hhistory
    split at hhistory
    · rw [shorten, SortedMap.get?_mapValues] at hhistory
      obtain ⟨all, hall, rfl⟩ := Option.map_eq_some_iff.1 hhistory
      exact lastValues_ne_nil (h number before hbefore key all hall) historyDepth
    · exact h number before hbefore key history hhistory
  · cases hheld

/-! ## What one operation forgets -/

/-- What is kept of a history of the current period. -/
def Kept : Option Nat → List Value → List Value → Prop
  | none, kept, all => kept = all
  | some depth, kept, all => Latest (max depth 1) kept all

theorem kept_lastValues (historyDepth : Option Nat) (history : List Value) :
    Kept historyDepth (lastValues historyDepth history) history := by
  cases historyDepth with
  | none => rfl
  | some depth => exact latest_lastItems _ _

/-- The latest periods are kept, and no other is. Only the current one loses values, none of its keys
and from each the oldest only. -/
structure Cleaned (periodDepth : Nat) (historyDepth : Option Nat) (before after : Store) : Prop where
  setup_eq : after.setup = before.setup
  period_eq : after.period = before.period
  held : Latest (max periodDepth 1) after.heldPeriods before.heldPeriods
  past : ∀ number ∈ after.heldPeriods, number ≠ before.period →
    after.periods.get? number = before.periods.get? number
  current : ∀ key, Option.Rel (Kept historyDepth) (after.history? key) (before.history? key)

theorem Spans.latest {first : Nat} (h : Spans first store) (periodDepth : Nat)
    (historyDepth : Option Nat) :
    Latest (max periodDepth 1) (store.cleanup periodDepth historyDepth).heldPeriods
      store.heldPeriods where
  suffix := by
    rw [heldPeriods_cleanup]
    refine filter_suffix store.heldPeriods_increase fun a b hlt hkept => ?_
    have hless := UInt64.lt_iff_toNat_lt.1 hlt
    have hfrom := of_decide_eq_true hkept
    exact decide_eq_true (by omega)
  length_eq := by
    have hbefore := congrArg List.length h.eq_range
    have hafter := congrArg List.length (h.cleanup periodDepth historyDepth).eq_range
    rw [List.length_map, List.length_range', period_cleanup] at hafter
    rw [List.length_map, List.length_range'] at hbefore
    have hle := h.le_period
    have hfrom : store.keepFrom periodDepth = store.period.toNat - (max periodDepth 1 - 1) := rfl
    omega

theorem Spans.cleaned {first : Nat} (h : Spans first store) (periodDepth : Nat)
    (historyDepth : Option Nat) :
    Cleaned periodDepth historyDepth store (store.cleanup periodDepth historyDepth) where
  setup_eq := setup_cleanup _ _ _
  period_eq := period_cleanup _ _ _
  held := h.latest periodDepth historyDepth
  past := by
    intro number hheld hpast
    rw [heldPeriods_cleanup, List.mem_filter, decide_eq_true_iff] at hheld
    rw [get?_periods_cleanup, if_pos hheld.2, remainder_past hpast, Option.map_id, id]
  current := by
    intro key
    rw [history?_cleanup_eq]
    cases store.history? key with
    | none => exact .none
    | some history => exact .some (kept_lastValues _ _)

/-! ## One after the other -/

/-- The lesser of two depths of histories. -/
def leastDepth : Option Nat → Option Nat → Option Nat
  | none, none => none
  | none, some depth => some (max depth 1)
  | some depth, none => some (max depth 1)
  | some depth, some other => some (min (max depth 1) (max other 1))

theorem lastValues_lastValues (h k : Option Nat) (history : List Value) :
    lastValues k (lastValues h history) = lastValues (leastDepth h k) history := by
  have hpositive : ∀ d : Nat, max (max d 1) 1 = max d 1 := fun d => by omega
  cases h with
  | none =>
    cases k with
    | none => rfl
    | some other => rw [leastDepth, lastValues, lastValues, lastValues, hpositive]
  | some depth =>
    cases k with
    | none => rw [leastDepth, lastValues, lastValues, lastValues, hpositive]
    | some other =>
      have hleast : max (min (max depth 1) (max other 1)) 1 = min (max depth 1) (max other 1) := by
        omega
      rw [leastDepth, lastValues, lastValues, lastValues, lastItems_lastItems, hleast]

theorem shorten_shorten (h k : Option Nat) (period : Period) :
    shorten k (shorten h period) = shorten (leastDepth h k) period := by
  apply SortedMap.ext_get?
  intro key
  simp only [shorten, SortedMap.get?_mapValues, Option.map_map]
  congr 1
  funext history
  exact lastValues_lastValues h k history

theorem eq_of_periods {a b : Store} (hsetup : a.setup = b.setup) (hperiod : a.period = b.period)
    (hperiods : ∀ number, a.periods.get? number = b.periods.get? number) : a = b := by
  obtain ⟨setup, periods, period⟩ := a
  obtain rfl : setup = b.setup := hsetup
  obtain rfl : period = b.period := hperiod
  obtain rfl : periods = b.periods := SortedMap.ext_get? hperiods
  rfl

theorem keepFrom_min_le {p q n : Nat} :
    store.keepFrom (min (max p 1) (max q 1)) ≤ n ↔ store.keepFrom p ≤ n ∧ store.keepFrom q ≤ n := by
  simp only [keepFrom]
  omega

theorem remainder_remainder (h k : Option Nat) (number : UInt64) (period : Period) :
    store.remainder k number (store.remainder h number period) =
      store.remainder (leastDepth h k) number period := by
  by_cases hnumber : number = store.period
  · rw [remainder, remainder, remainder, if_pos hnumber, if_pos hnumber, if_pos hnumber,
      shorten_shorten]
  · rw [remainder, remainder, remainder, if_neg hnumber, if_neg hnumber, if_neg hnumber]

/-- Forgetting twice is forgetting once, by the lesser depths. -/
theorem cleanup_cleanup (store : Store) (p q : Nat) (h k : Option Nat) :
    (store.cleanup p h).cleanup q k =
      store.cleanup (min (max p 1) (max q 1)) (leastDepth h k) := by
  refine eq_of_periods ?_ ?_ fun number => ?_
  · rw [setup_cleanup, setup_cleanup, setup_cleanup]
  · rw [period_cleanup, period_cleanup, period_cleanup]
  · have hfrom : (store.cleanup p h).keepFrom q = store.keepFrom q := by
      rw [keepFrom, period_cleanup, keepFrom]
    have hremainder : (store.cleanup p h).remainder k number = store.remainder k number := by
      funext period
      rw [remainder, period_cleanup, remainder]
    rw [get?_periods_cleanup, get?_periods_cleanup, get?_periods_cleanup, hfrom, hremainder]
    simp only [keepFrom_min_le]
    by_cases hp : store.keepFrom p ≤ number.toNat
    · by_cases hq : store.keepFrom q ≤ number.toNat
      · rw [if_pos hq, if_pos hp, if_pos ⟨hp, hq⟩, Option.map_map]
        congr 1
        funext period
        exact remainder_remainder h k number period
      · rw [if_neg hq, if_neg fun hboth => hq hboth.2]
    · rw [if_neg hp, Option.map_none, ite_self, if_neg fun hboth => hp hboth.1]

theorem cleanup_idem (store : Store) (periodDepth : Nat) (historyDepth : Option Nat) :
    (store.cleanup periodDepth historyDepth).cleanup periodDepth historyDepth =
      store.cleanup periodDepth historyDepth := by
  have hvalues : lastValues (leastDepth historyDepth historyDepth) = lastValues historyDepth := by
    funext history
    cases historyDepth with
    | none => rfl
    | some depth =>
      have hsame : max (min (max depth 1) (max depth 1)) 1 = max depth 1 := by omega
      rw [leastDepth, lastValues, lastValues, hsame]
  rw [cleanup_cleanup]
  refine eq_of_periods ?_ ?_ fun number => ?_
  · rw [setup_cleanup, setup_cleanup]
  · rw [period_cleanup, period_cleanup]
  · simp only [get?_periods_cleanup, keepFrom_min_le, and_self]
    congr 2
    funext period
    rw [remainder, remainder, shorten, shorten, hvalues]

/-! ## Any operations -/

/-- An operation may take old periods away at the front, and leaves no gap. -/
theorem spans_of_apply {first : Nat} {operation : Operation} {next : Store}
    (hspans : Spans first store) (hfilled : store.Filled)
    (happly : store.apply operation = .ok next) :
    ∃ later, first ≤ later ∧ Spans later next ∧ next.Filled := by
  cases operation with
  | update updates =>
    cases happly
    exact ⟨first, Nat.le_refl _, hspans.update updates, hfilled.update updates⟩
  | create keys =>
    exact ⟨first, Nat.le_refl _, hspans.create happly, hfilled.create happly⟩
  | cleanup periodDepth historyDepth =>
    cases happly
    exact ⟨_, Nat.le_max_left _ _, hspans.cleanup periodDepth historyDepth,
      hfilled.cleanup periodDepth historyDepth⟩

theorem spans_of_run {setup : SortedMap String Value} {operations : List Operation} {last : Store}
    (hrun : (ofSetup setup).run operations = .ok last) :
    ∃ first, Spans first last ∧ last.Filled := by
  refine Checked.holds_of_foldlM (fun store => ∃ first, Spans first store ∧ store.Filled) ?_
    ⟨0, spans_ofSetup setup, filled_ofSetup setup⟩ hrun
  rintro store operation next ⟨first, hspans, hfilled⟩ happly
  obtain ⟨later, -, hnext⟩ := spans_of_apply hspans hfilled happly
  exact ⟨later, hnext⟩

theorem wellFormed_of_run {setup : SortedMap String Value} {operations : List Operation}
    (hfits : ((PlainStore.ofSetup setup).run operations).period < UInt64.size) :
    ∃ store, (ofSetup setup).run operations = .ok store ∧ store.WellFormed ∧
      (∀ periodDepth historyDepth,
        Cleaned periodDepth historyDepth store (store.cleanup periodDepth historyDepth)) ∧
      (∀ periodDepth historyDepth,
        (store.cleanup periodDepth historyDepth).cleanup periodDepth historyDepth =
          store.cleanup periodDepth historyDepth) ∧
      ∀ p q h k, (store.cleanup p h).cleanup q k =
        store.cleanup (min (max p 1) (max q 1)) (leastDepth h k) := by
  obtain ⟨store, hrun, -⟩ := Matches.run hfits
  obtain ⟨first, hspans, hfilled⟩ := spans_of_run hrun
  exact ⟨store, hrun, hspans.wellFormed hfilled, hspans.cleaned, store.cleanup_idem,
    store.cleanup_cleanup⟩

/-- Three periods are opened, and the first one is forgotten before the last one. -/
def threePeriods : List Operation :=
  [.create [], .update [("price", .uint 1), ("price", .uint 2)], .create ["price"],
    .cleanup 2 (some 0), .create ["fee"], .update [("fee", .uint 8), ("fee", .uint 9)]]

theorem wellFormed_of_run_three :
    ((PlainStore.ofSetup someSetup).run threePeriods).period < UInt64.size ∧
      ∃ store, (ofSetup someSetup).run threePeriods = .ok store ∧ store.WellFormed ∧
        store.heldPeriods = [1, 2, 3] ∧ store.history? "fee" = some [.uint 7, .uint 8, .uint 9] ∧
        Cleaned 2 (some 2) store (store.cleanup 2 (some 2)) ∧
        (store.cleanup 2 none).cleanup 0 (some 2) = store.cleanup 1 (some 2) := by
  have hfits : ((PlainStore.ofSetup someSetup).run threePeriods).period < UInt64.size := by decide
  have hreads : ((ofSetup someSetup).run threePeriods).map
      (fun store => (store.heldPeriods, store.history? "fee")) =
        .ok ([1, 2, 3], some [.uint 7, .uint 8, .uint 9]) := by
    rfl
  obtain ⟨store, hrun, hformed, hcleaned, -, hcompose⟩ := wellFormed_of_run hfits
  rw [hrun] at hreads
  obtain ⟨hheld, hfee⟩ := Prod.mk.inj (Except.ok.inj hreads)
  exact ⟨hfits, store, hrun, hformed, hheld, hfee, hcleaned 2 (some 2),
    hcompose 2 0 none (some 2)⟩

end Store

end QuorumRounds
