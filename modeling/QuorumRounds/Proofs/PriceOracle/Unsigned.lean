import QuorumRounds.PriceOracle.Data
import QuorumRounds.Proofs.Store.Reads

/-! # Stores up to the sign of zero

Zero has a sign, which an equality of numbers does not see. So two participants who vote for equal
estimates may write different bits, and which of them ends up in the store depends on who was first.
`unsigned store` is the store with the sign of every zero estimate taken away; everything that is
ever read to decide something is left as it is.

Taking the signs away commutes with every operation on stores (`unsigned_update`, `unsigned_create`,
`unsigned_cleanup`), so stores that differ in such signs alone go on differing in them alone. -/

namespace QuorumRounds
set_option autoImplicit false

/-- The number, or positive zero for either zero. -/
def Binary64.unsignedZero (x : Binary64) : Binary64 := if x.isZero then ⟨0⟩ else x

theorem Binary64.unsignedZero_congr {x y : Binary64} (h : x = y ∨ x.equals y = true) :
    x.unsignedZero = y.unsignedZero := by
  rcases h with rfl | h
  · rfl
  · simp only [equals, Bool.and_eq_true, Bool.or_eq_true, beq_iff_eq] at h
    rcases h.2 with rfl | ⟨hx, hy⟩
    · rfl
    · rw [unsignedZero, unsignedZero, if_pos hx, if_pos hy]

namespace PriceOracle

/-- The value, without the sign of zero if it is an estimate. -/
def unsign (key : String) (value : Value) : Value :=
  if key = estimateKey then
    match value with
    | .float price => .float price.unsignedZero
    | other => other
  else value

def unsignPeriod (period : Period) : Period :=
  period.filterMap fun key history => some (history.map (unsign key))

def unsigned (store : Store) : Store where
  setup := store.setup.filterMap fun key value => some (unsign key value)
  periods := store.periods.mapValues unsignPeriod
  period := store.period

theorem unsign_of_ne {key : String} (h : key ≠ estimateKey) (value : Value) :
    unsign key value = value := if_neg h

theorem unsign_estimate (price : Binary64) :
    unsign estimateKey (.float price) = .float price.unsignedZero := if_pos rfl

/-! ## Reads -/

theorem get?_unsignPeriod (period : Period) (key : String) :
    (unsignPeriod period).get? key = (period.get? key).map (·.map (unsign key)) := by
  rw [unsignPeriod, SortedMap.get?_filterMap]
  cases period.get? key <;> rfl

theorem current?_unsigned (store : Store) :
    (unsigned store).current? = store.current?.map unsignPeriod :=
  SortedMap.get?_mapValues _ _ _

theorem history?_unsigned (store : Store) (key : String) :
    (unsigned store).history? key = (store.history? key).map (·.map (unsign key)) := by
  rw [Store.history?, current?_unsigned, Store.history?]
  cases store.current? with
  | none => rfl
  | some period => exact get?_unsignPeriod period key

theorem get?_unsigned (store : Store) (key : String) :
    (unsigned store).get? key = (store.get? key).map (unsign key) := by
  rw [Store.get?, history?_unsigned, Store.get?]
  cases store.history? key with
  | none => rfl
  | some history => exact List.getLast?_map ..

theorem participants_unsigned (store : Store) :
    (unsigned store).participants = store.participants := by
  apply Store.participants_congr
  have hsame : unsign participantsKey = id := funext fun value => unsign_of_ne (by decide) value
  rw [get?_unsigned, hsame, Option.map_id, id]

/-! ## Writes -/

theorem unsignPeriod_insert (period : Period) (key : String) (history : List Value) :
    unsignPeriod (period.insert key history) =
      (unsignPeriod period).insert key (history.map (unsign key)) := by
  apply SortedMap.ext_get?
  intro k
  rw [get?_unsignPeriod, SortedMap.get?_insert, SortedMap.get?_insert, get?_unsignPeriod]
  by_cases hk : k = key
  · subst hk
    rw [if_pos rfl, if_pos rfl, Option.map_some]
  · rw [if_neg hk, if_neg hk]

theorem unsignPeriod_append (period : Period) (key : String) (value : Value) :
    unsignPeriod (Store.append period key value) =
      Store.append (unsignPeriod period) key (unsign key value) := by
  rw [Store.append, unsignPeriod_insert, Store.append, get?_unsignPeriod, List.map_append]
  cases period.get? key <;> rfl

theorem unsigned_update (store : Store) (key : String) (value : Value) :
    unsigned (store.update [(key, value)]) = (unsigned store).update [(key, unsign key value)] := by
  have hcurrent : unsignPeriod (store.current?.getD ∅) = (unsigned store).current?.getD ∅ := by
    rw [current?_unsigned]
    cases store.current? <;> rfl
  simp only [Store.update, unsigned, List.foldl_cons, List.foldl_nil, SortedMap.mapValues_insert,
    unsignPeriod_append, hcurrent]

theorem unsignPeriod_seed (setup : SortedMap String Value) :
    unsignPeriod (Store.seed setup) =
      Store.seed (setup.filterMap fun key value => some (unsign key value)) := by
  apply SortedMap.ext_get?
  intro k
  rw [get?_unsignPeriod, Store.seed, Store.seed, SortedMap.get?_mapValues,
    SortedMap.get?_mapValues, SortedMap.get?_filterMap]
  cases setup.get? k <;> rfl

theorem unsignPeriod_carried (store : Store) (keys : List String) :
    unsignPeriod (store.carried keys) = (unsigned store).carried keys := by
  rw [Store.carried, Store.carried]
  induction keys using List.reverseRecOn with
  | nil => exact unsignPeriod_seed store.setup
  | append_singleton keys last ih =>
    rw [List.foldl_append, List.foldl_append, List.foldl_cons, List.foldl_cons, List.foldl_nil,
      List.foldl_nil, get?_unsigned, ← ih]
    cases store.get? last with
    | none => rfl
    | some value => exact unsignPeriod_insert _ _ _

theorem unsigned_create (store : Store) (keys : List String) :
    (unsigned store).create keys = (store.create keys).map unsigned := by
  rw [Store.create, Store.create]
  cases hnext : Word.succ store.period with
  | error e =>
    have hnext' : Word.succ (unsigned store).period = .error e := hnext
    rw [hnext']
    rfl
  | ok next =>
    have hnext' : Word.succ (unsigned store).period = .ok next := hnext
    rw [hnext', Checked.ok_bind, Checked.ok_bind]
    simp only [Checked.pure_eq_ok, Except.map, unsigned, SortedMap.mapValues_insert,
      unsignPeriod_carried]

theorem unsigned_cleanup (store : Store) (depth : Nat) :
    unsigned (store.cleanup depth none) = (unsigned store).cleanup depth none := by
  simp only [Store.cleanup, unsigned, SortedMap.mapValues_filterKeys]
  rfl

end PriceOracle

end QuorumRounds
