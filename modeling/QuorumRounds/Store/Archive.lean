import QuorumRounds.Store.Basic
import QuorumRounds.Store.Index

/-! # Snapshots of a store

An archive numbers the snapshots of one store in the order in which they were taken. A snapshot is
the store, and the index of each period that it holds. Whoever needs no comparison of snapshots can
do without an archive: the stores in it are made by the operations of `Store` alone.

* `Archive.update`, `create`, `cleanup`: the snapshot that comes next, made from an earlier one.
* `store_update`, `map_store_create`, `store_cleanup`: it holds what `Store.update`, `Store.create`
  or `Store.cleanup` makes of the earlier store.
* `Archive.same`: equal contents, with floating-point numbers compared as numbers, except that what
  two snapshots share is equal to itself.
-/

namespace QuorumRounds
set_option autoImplicit false

/-- A store, and the index of each period that it holds. -/
structure Snapshot where
  store : Store
  indexes : SortedMap UInt64 Index

/-- Every snapshot has the setup data of the first. -/
structure Archive where
  snapshots : Array Snapshot

namespace Archive

/-- The first snapshot has written all its pages. -/
def ofSetup (setup : SortedMap String Value) : Archive :=
  ⟨#[⟨Store.ofSetup setup, SortedMap.insert ∅ 0 (Index.ofKeys 0 setup.keys)⟩]⟩

def size (archive : Archive) : Nat := archive.snapshots.size

/-- The snapshot with this number. -/
def get? (archive : Archive) (number : Nat) : Option Snapshot := archive.snapshots[number]?

/-- Takes one more snapshot. -/
def push (archive : Archive) (next : Snapshot) : Archive := ⟨archive.snapshots.push next⟩

/-! ## The next snapshot -/

/-- Writes the updated keys in the index of the current period. -/
def update (archive : Archive) (base : Snapshot) (updates : List (String × Value)) : Snapshot where
  store := base.store.update updates
  indexes :=
    let index := (base.indexes.get? base.store.period).getD (Index.ofKeys archive.size [])
    base.indexes.insert base.store.period
      ((updates.map (·.1)).foldl (Index.insert archive.size) index)

/-- Writes the index of the next period: the keys of the setup data, then the carried keys. -/
def create (archive : Archive) (base : Snapshot) (keys : List String) : Checked Snapshot := do
  let store ← base.store.create keys
  let carried := keys.filter fun key => (base.store.get? key).isSome
  let index := Index.ofKeys archive.size (store.setup.keys ++ carried)
  pure ⟨store, base.indexes.insert store.period index⟩

/-- Cutting the histories writes the index of the current period anew, whether or not one of them
was too long. -/
def cleanup (archive : Archive) (base : Snapshot) (periodDepth : Nat) (historyDepth : Option Nat) :
    Snapshot where
  store := base.store.cleanup periodDepth historyDepth
  indexes :=
    let store := base.store.cleanup periodDepth historyDepth
    let held := base.indexes.filterKeys store.periods.contains
    match historyDepth, store.current? with
    | some _, some period => held.insert store.period (Index.ofKeys archive.size period.keys)
    | _, _ => held

@[simp]
theorem store_update (archive : Archive) (base : Snapshot) (updates : List (String × Value)) :
    (archive.update base updates).store = base.store.update updates := rfl

@[simp]
theorem store_cleanup (archive : Archive) (base : Snapshot) (periodDepth : Nat)
    (historyDepth : Option Nat) :
    (archive.cleanup base periodDepth historyDepth).store =
      base.store.cleanup periodDepth historyDepth := rfl

theorem map_store_create (archive : Archive) (base : Snapshot) (keys : List String) :
    (archive.create base keys).map (·.store) = base.store.create keys := by
  unfold create
  cases base.store.create keys <;> rfl

/-! ## Comparison -/

/-- What `a` and `b` hold of a period. -/
def samePeriod (a b : Snapshot) (number : UInt64) : Bool :=
  match a.store.periods.get? number, b.store.periods.get? number with
  | some p, some q =>
    let equal (key : String) : Bool :=
      match p.get? key, q.get? key with
      | some x, some y => Value.sameItems x y
      | _, _ => false
    Index.agree equal (a.indexes.get? number).toList (b.indexes.get? number).toList
  | _, _ => false

/-- Whether the snapshots hold the same periods with the same content. -/
def same (a b : Snapshot) : Bool :=
  let held := a.store.heldPeriods
  held == b.store.heldPeriods && held.all (samePeriod a b) && a.store.period == b.store.period

end Archive

end QuorumRounds
