import Mathlib.Data.List.Induction
import QuorumRounds.Proofs.Checked
import QuorumRounds.SortedMap.Lemmas
import QuorumRounds.Store.Basic

/-! # What the operations on a store do to its reads

An update of one key appends to the history of that key and leaves every other as it was. A new
period holds the latest values of the carried keys, and forgetting old periods changes no read.

`Store.participants` reads one key (`participants_congr`), which it finds readable once a list of
addresses has been written there. -/

namespace QuorumRounds.Store
set_option autoImplicit false

/-! ## Updates -/

theorem current?_update (store : Store) (updates : List (String × Value)) :
    (store.update updates).current? =
      some (updates.foldl (fun p u => append p u.1 u.2) (store.current?.getD ∅)) := by
  rw [current?, update, SortedMap.get?_insert, if_pos rfl]

theorem history?_eq (store : Store) (key : String) :
    store.history? key = (store.current?.getD ∅).get? key := by
  rw [history?]
  cases store.current? with
  | none => rfl
  | some period => rfl

/-- The values that the updates write under the key, in their order. -/
def written (key : String) (updates : List (String × Value)) : List Value :=
  (updates.filter fun u => u.1 = key).map (·.2)

theorem get?_foldl_append (period : Period) (updates : List (String × Value)) (key : String) :
    (updates.foldl (fun p u => append p u.1 u.2) period).get? key =
      if written key updates = [] then period.get? key
      else some ((period.get? key).getD [] ++ written key updates) := by
  induction updates generalizing period with
  | nil => rfl
  | cons u rest ih =>
    rw [List.foldl_cons, ih, append, SortedMap.get?_insert]
    by_cases hkey : u.1 = key
    · have hwritten : written key (u :: rest) = u.2 :: written key rest := by
        simp [written, hkey]
      rw [hwritten, if_pos hkey.symm, if_neg (List.cons_ne_nil _ _), hkey]
      by_cases hrest : written key rest = []
      · rw [if_pos hrest, hrest]
      · rw [if_neg hrest, Option.getD_some, List.append_assoc]
        rfl
    · have hwritten : written key (u :: rest) = written key rest := by
        simp [written, hkey]
      rw [hwritten, if_neg (Ne.symm hkey)]

/-- The latest values by key are what each key reads. -/
theorem get?_latest (store : Store) (key : String) : store.latest.get? key = store.get? key := by
  rw [latest, SortedMap.get?_filterMap, ← history?_eq, get?]

theorem history?_update_all (store : Store) (updates : List (String × Value)) (key : String) :
    (store.update updates).history? key =
      if written key updates = [] then store.history? key
      else some ((store.history? key).getD [] ++ written key updates) := by
  rw [history?, current?_update, Option.bind_some, get?_foldl_append, ← store.history?_eq]

theorem history?_update (store : Store) (key k : String) (value : Value) :
    (store.update [(key, value)]).history? k =
      if k = key then some ((store.history? key).getD [] ++ [value]) else store.history? k := by
  rw [history?_update_all]
  by_cases hk : k = key
  · subst hk
    simp [written]
  · simp [written, hk, Ne.symm hk]

/-- Keys that are not written keep their values. -/
theorem get?_update_of_not_written {store : Store} {updates : List (String × Value)} {key : String}
    (h : written key updates = []) : (store.update updates).get? key = store.get? key := by
  rw [get?, history?_update_all, if_pos h, get?]

theorem get?_update (store : Store) (key k : String) (value : Value) :
    (store.update [(key, value)]).get? k = if k = key then some value else store.get? k := by
  rw [get?, history?_update]
  by_cases hk : k = key
  · rw [if_pos hk, if_pos hk, Option.bind_some, List.getLast?_append]
    rfl
  · rw [if_neg hk, if_neg hk, get?]

/-- The value goes to the end of the history of its key, and no other history changes. -/
structure Appends (key : String) (value : Value) (before after : Store) : Prop where
  eq_update : after = before.update [(key, value)]
  history_eq : after.history? key = some ((before.history? key).getD [] ++ [value])
  frame : ∀ k, k ≠ key → after.history? k = before.history? k

theorem appends_update (store : Store) (key : String) (value : Value) :
    Appends key value store (store.update [(key, value)]) where
  eq_update := rfl
  history_eq := by rw [history?_update, if_pos rfl]
  frame := by
    intro k hk
    rw [history?_update, if_neg hk]

/-- Nothing else changes, in any period. -/
structure AppendsOnly (key : String) (value : Value) (before after : Store) : Prop extends
    Appends key value before after where
  setup_eq : after.setup = before.setup
  period_eq : after.period = before.period
  past : ∀ number, number ≠ before.period →
    after.periods.get? number = before.periods.get? number

theorem appendsOnly_update (store : Store) (key : String) (value : Value) :
    AppendsOnly key value store (store.update [(key, value)]) where
  toAppends := appends_update store key value
  setup_eq := rfl
  period_eq := rfl
  past := by
    intro number hnumber
    rw [update, SortedMap.get?_insert, if_neg hnumber]

/-! ## Periods -/

theorem history?_ofSetup (setup : SortedMap String Value) (key : String) :
    (ofSetup setup).history? key = (setup.get? key).map ([·]) := by
  rw [history?, current?, ofSetup, SortedMap.get?_insert, if_pos rfl, Option.bind_some, seed,
    SortedMap.get?_mapValues]

/-- A key that has been written once. -/
theorem get?_of_history {store : Store} {key : String} {value : Option Value}
    (h : store.history? key = value.map ([·])) : store.get? key = value := by
  rw [get?, h]
  cases value with
  | none => rfl
  | some value => rfl

theorem get?_ofSetup (setup : SortedMap String Value) (key : String) :
    (ofSetup setup).get? key = setup.get? key := get?_of_history (history?_ofSetup setup key)

/-- Carried keys with a value take it along; the setup data fill up the rest. -/
theorem get?_carried_eq (store : Store) (keys : List String) (key : String) :
    (store.carried keys).get? key =
      ((if key ∈ keys then store.get? key else none).or (store.setup.get? key)).map ([·]) := by
  rw [carried]
  -- A key may be listed again later, and is then written once more with the same value.
  induction keys using List.reverseRecOn with
  | nil =>
    rw [List.foldl_nil, seed, SortedMap.get?_mapValues, if_neg List.not_mem_nil, Option.none_or]
  | append_singleton keys last ih =>
    rw [List.foldl_append, List.foldl_cons, List.foldl_nil]
    by_cases hlast : key = last
    · subst hlast
      rw [if_pos (by simp)]
      cases hvalue : store.get? key with
      | none =>
        simp only [hvalue, ite_self] at ih
        exact ih
      | some value =>
        simp only [SortedMap.get?_insert, if_true]
        rfl
    · have hmem : key ∈ keys ++ [last] ↔ key ∈ keys := by simp [hlast]
      simp only [hmem]
      cases store.get? last with
      | none => exact ih
      | some other =>
        simp only [SortedMap.get?_insert, if_neg hlast]
        exact ih

theorem create_eq_ok {store next : Store} {keys : List String} (h : store.create keys = .ok next) :
    Word.succ store.period = .ok next.period ∧
      next = { store with
        periods := store.periods.insert next.period (store.carried keys)
        period := next.period } := by
  obtain ⟨number, hnumber, heq⟩ := Checked.bind_eq_ok_iff.1 h
  cases heq
  exact ⟨hnumber, rfl⟩

/-- Only the number of the period can overflow. -/
theorem exists_create {store : Store} (keys : List String)
    (h : store.period.toNat + 1 < UInt64.size) : ∃ next, store.create keys = .ok next := by
  obtain ⟨number, hnumber⟩ := Word.exists_succ h
  rw [create, hnumber]
  exact ⟨_, rfl⟩

theorem history?_create {store next : Store} {keys : List String} (h : store.create keys = .ok next)
    (key : String) :
    next.history? key =
      ((if key ∈ keys then store.get? key else none).or (store.setup.get? key)).map ([·]) := by
  rw [(create_eq_ok h).2]
  simp only [history?, current?, SortedMap.get?_insert, if_true, Option.bind_some, get?_carried_eq]

theorem get?_create {store next : Store} {keys : List String} {key : String} {value : Value}
    (h : store.create keys = .ok next) (hkey : key ∈ keys) (hvalue : store.get? key = some value) :
    next.get? key = some value := by
  rw [get?, history?_create h, if_pos hkey, hvalue]
  rfl

theorem setup_cleanup (store : Store) (depth : Nat) (values : Option Nat) :
    (store.cleanup depth values).setup = store.setup := by
  unfold cleanup
  dsimp only
  split <;> rfl

theorem period_cleanup (store : Store) (depth : Nat) (values : Option Nat) :
    (store.cleanup depth values).period = store.period := by
  unfold cleanup
  dsimp only
  split <;> rfl

/-- The oldest number that is kept. -/
def keepFrom (store : Store) (periodDepth : Nat) : Nat :=
  store.period.toNat - (max periodDepth 1 - 1)

theorem keepFrom_le_period (store : Store) (periodDepth : Nat) :
    store.keepFrom periodDepth ≤ store.period.toNat := Nat.sub_le _ _

/-- No depth is no limit, and a depth of zero counts as one. -/
def lastValues : Option Nat → List Value → List Value
  | none, history => history
  | some depth, history => lastItems (max depth 1) history

def shorten (historyDepth : Option Nat) (period : Period) : Period :=
  period.mapValues (lastValues historyDepth)

theorem shorten_none (period : Period) : shorten none period = period := by
  apply SortedMap.ext_get?
  intro key
  rw [shorten, SortedMap.get?_mapValues]
  cases period.get? key with
  | none => rfl
  | some history => rfl

/-- Only the current period loses values. -/
def remainder (store : Store) (historyDepth : Option Nat) (number : UInt64) (period : Period) :
    Period :=
  if number = store.period then shorten historyDepth period else period

theorem remainder_current (store : Store) (historyDepth : Option Nat) :
    store.remainder historyDepth store.period = shorten historyDepth := by
  funext period
  rw [remainder, if_pos rfl]

theorem remainder_past {store : Store} {number : UInt64} (h : number ≠ store.period)
    (historyDepth : Option Nat) : store.remainder historyDepth number = id := by
  funext period
  rw [remainder, if_neg h, id]

theorem get?_periods_cleanup (store : Store) (periodDepth : Nat) (historyDepth : Option Nat)
    (number : UInt64) :
    (store.cleanup periodDepth historyDepth).periods.get? number =
      if store.keepFrom periodDepth ≤ number.toNat
      then (store.periods.get? number).map (store.remainder historyDepth number) else none := by
  have hheld : ∀ k : UInt64, (store.periods.filterKeys fun period =>
      decide (store.period.toNat - (max periodDepth 1 - 1) ≤ period.toNat)).get? k =
        if store.keepFrom periodDepth ≤ k.toNat then store.periods.get? k else none := by
    intro k
    rw [SortedMap.get?_filterKeys]
    simp only [decide_eq_true_eq]
    rfl
  by_cases hnumber : number = store.period
  · subst hnumber
    have hcurrent := hheld store.period
    rw [if_pos (store.keepFrom_le_period periodDepth)] at hcurrent ⊢
    rw [remainder_current]
    unfold cleanup
    simp only [hcurrent]
    cases historyDepth with
    | none =>
      rw [funext shorten_none, Option.map_id']
      exact hcurrent
    | some depth =>
      cases hperiod : store.periods.get? store.period with
      | none => exact hcurrent.trans hperiod
      | some period =>
        simp only [SortedMap.get?_insert, if_true, Option.map_some]
        rfl
  · rw [remainder_past hnumber, Option.map_id, id, ← hheld]
    unfold cleanup
    dsimp only
    split
    · rw [SortedMap.get?_insert, if_neg hnumber]
    · rfl

/-- The current period is always kept. -/
theorem current?_cleanup_eq (store : Store) (depth : Nat) (values : Option Nat) :
    (store.cleanup depth values).current? = store.current?.map (shorten values) := by
  rw [current?, period_cleanup, get?_periods_cleanup, if_pos (store.keepFrom_le_period depth),
    remainder_current, current?]

theorem current?_cleanup (store : Store) (depth : Nat) :
    (store.cleanup depth none).current? = store.current? := by
  rw [current?_cleanup_eq, funext shorten_none, Option.map_id']

theorem history?_cleanup_eq (store : Store) (depth : Nat) (values : Option Nat) (key : String) :
    (store.cleanup depth values).history? key = (store.history? key).map (lastValues values) := by
  rw [history?, current?_cleanup_eq, history?]
  cases store.current? with
  | none => rfl
  | some period => exact SortedMap.get?_mapValues _ _ _

theorem history?_cleanup (store : Store) (depth : Nat) (key : String) :
    (store.cleanup depth none).history? key = store.history? key := by
  rw [history?, current?_cleanup, history?]

theorem history?_cleanup_some (store : Store) (depth values : Nat) (key : String) :
    (store.cleanup depth (some values)).history? key =
      (store.history? key).map (lastItems (max values 1)) :=
  history?_cleanup_eq store depth (some values) key

theorem get?_cleanup (store : Store) (depth : Nat) (key : String) :
    (store.cleanup depth none).get? key = store.get? key := by
  rw [get?, history?_cleanup, get?]

/-! ## Participants -/

theorem participants_congr {a b : Store} (h : a.get? participantsKey = b.get? participantsKey) :
    a.participants = b.participants := by
  rw [participants, participants, get, get, h]

theorem exists_get?_of_participants {store : Store} {participants : SortedSet String}
    (h : store.participants = .ok participants) :
    ∃ value, store.get? participantsKey = some value := by
  cases hvalue : store.get? participantsKey with
  | some value => exact ⟨value, rfl⟩
  | none =>
    rw [Store.participants, get, hvalue] at h
    cases h

theorem mapM_asText? (addresses : List String) :
    (addresses.map Value.text).mapM Value.asText? = some addresses := by
  induction addresses with
  | nil => rfl
  | cons address rest ih =>
    rw [List.map_cons, List.mapM_cons, ih]
    rfl

theorem participants_of_value {store : Store} {addresses : List String}
    (h : store.get? participantsKey = some (participantsValue addresses)) :
    store.participants = .ok (SortedSet.ofList addresses) := by
  have hitems := mapM_asText? addresses
  have hget : store.get participantsKey = .ok (.list (addresses.map .text)) := by
    rw [get, h]
    rfl
  simp only [participants, hget, bind, Except.bind, Value.asList?, hitems]
  rfl

end QuorumRounds.Store
