/-! # Finite maps in key order

A `SortedMap` is its list of entries, each key strictly below the next, so that two maps with the
same entries are equal and every traversal runs in key order.

* `insertEntry`, `lookupEntry`: the operations on the list of entries. They are used directly where
  a list of entries occurs inside a recursive type.
* `SortedMap.insert`, `get?`, `filterMap`, `filterKeys`: the operations on maps.
* `SortedSet`: the keys alone.
-/

namespace QuorumRounds
set_option autoImplicit false

universe u v w

section Entries
variable {κ : Type u} {α : Type v} [Ord κ]

/-- The keys of these entries increase strictly. -/
def KeysIncrease (entries : List (κ × α)) : Prop :=
  entries.Pairwise fun a b => compare a.1 b.1 = .lt

instance (entries : List (κ × α)) : Decidable (KeysIncrease entries) :=
  inferInstanceAs (Decidable (List.Pairwise _ _))

/-- Puts the entry before the first larger key, in place of an equal one. -/
def insertEntry (key : κ) (value : α) : List (κ × α) → List (κ × α)
  | [] => [(key, value)]
  | (k, v) :: rest =>
    match compare key k with
    | .lt => (key, value) :: (k, v) :: rest
    | .eq => (key, value) :: rest
    | .gt => (k, v) :: insertEntry key value rest

/-- The value of the first entry with the key. -/
def lookupEntry (key : κ) : List (κ × α) → Option α
  | [] => none
  | (k, v) :: rest =>
    match compare key k with
    | .eq => some v
    | _ => lookupEntry key rest

theorem mem_insertEntry {key : κ} {value : α} {entries : List (κ × α)} {e : κ × α}
    (h : e ∈ insertEntry key value entries) : e = (key, value) ∨ e ∈ entries := by
  induction entries with
  | nil => exact .inl (by simpa [insertEntry] using h)
  | cons head rest ih =>
    obtain ⟨k, v⟩ := head
    rw [insertEntry] at h
    split at h
    · simpa using h
    · rcases List.mem_cons.1 h with h | h
      · exact .inl h
      · exact .inr (List.mem_cons_of_mem _ h)
    · rcases List.mem_cons.1 h with h | h
      · exact .inr (h ▸ List.mem_cons_self ..)
      · exact (ih h).imp_right (List.mem_cons_of_mem _)

theorem keysIncrease_insertEntry [Std.TransOrd κ] {key : κ} {value : α} {entries : List (κ × α)}
    (h : KeysIncrease entries) : KeysIncrease (insertEntry key value entries) := by
  induction entries with
  | nil => exact List.pairwise_singleton _ _
  | cons head rest ih =>
    obtain ⟨k, v⟩ := head
    obtain ⟨hk, hrest⟩ := List.pairwise_cons.1 h
    rw [insertEntry]
    split
    case h_1 hlt =>
      refine List.pairwise_cons.2 ⟨fun e he => ?_, h⟩
      rcases List.mem_cons.1 he with rfl | he
      · exact hlt
      · exact Std.TransCmp.lt_trans hlt (hk e he)
    case h_2 heq =>
      exact List.pairwise_cons.2 ⟨fun e he => Std.TransCmp.lt_of_eq_of_lt heq (hk e he), hrest⟩
    case h_3 hgt =>
      refine List.pairwise_cons.2 ⟨fun e he => ?_, ih hrest⟩
      rcases mem_insertEntry he with rfl | he
      · exact Std.OrientedCmp.lt_of_gt hgt
      · exact hk e he

end Entries

/-- Entries with distinct keys, in key order. -/
structure SortedMap (κ : Type u) (α : Type v) [Ord κ] where
  entries : List (κ × α)
  keysIncrease : KeysIncrease entries

namespace SortedMap
variable {κ : Type u} {α : Type v} {β : Type w} [Ord κ]

instance [DecidableEq κ] [DecidableEq α] : DecidableEq (SortedMap κ α) := fun a b =>
  decidable_of_iff (a.entries = b.entries)
    ⟨fun h => by cases a; cases b; simp_all, fun h => h ▸ rfl⟩

/-- No entries. -/
def empty : SortedMap κ α := ⟨[], List.Pairwise.nil⟩

instance : EmptyCollection (SortedMap κ α) := ⟨empty⟩
instance : Inhabited (SortedMap κ α) := ⟨empty⟩

/-- The number of entries. -/
def size (m : SortedMap κ α) : Nat := m.entries.length

def isEmpty (m : SortedMap κ α) : Bool := m.entries.isEmpty

/-- The keys, in order. -/
def keys (m : SortedMap κ α) : List κ := m.entries.map (·.1)

/-- The values, in the order of their keys. -/
def values (m : SortedMap κ α) : List α := m.entries.map (·.2)

/-- The value under a key. -/
def get? (m : SortedMap κ α) (key : κ) : Option α := lookupEntry key m.entries

/-- Whether there is a value under a key. -/
def contains (m : SortedMap κ α) (key : κ) : Bool := (m.get? key).isSome

/-- A value that is already there is replaced. -/
def insert [Std.TransOrd κ] (m : SortedMap κ α) (key : κ) (value : α) : SortedMap κ α :=
  ⟨insertEntry key value m.entries, keysIncrease_insertEntry m.keysIncrease⟩

/-- Of two entries with one key the later one counts. -/
def ofList [Std.TransOrd κ] (entries : List (κ × α)) : SortedMap κ α :=
  entries.foldl (fun m e => m.insert e.1 e.2) empty

/-- The entries for which `f` has a value, under their old keys. -/
def filterMap (f : κ → α → Option β) (m : SortedMap κ α) : SortedMap κ β where
  entries := m.entries.filterMap fun e => (f e.1 e.2).map (e.1, ·)
  keysIncrease := by
    refine List.Pairwise.filterMap _ (fun a b hab c hc d hd => ?_) m.keysIncrease
    obtain ⟨_, _, rfl⟩ := Option.map_eq_some_iff.1 hc
    obtain ⟨_, _, rfl⟩ := Option.map_eq_some_iff.1 hd
    exact hab

/-- The keys stay. -/
def mapValues (f : α → β) (m : SortedMap κ α) : SortedMap κ β where
  entries := m.entries.map fun e => (e.1, f e.2)
  keysIncrease := by
    rw [KeysIncrease, List.pairwise_map]
    exact m.keysIncrease

/-- The entries whose keys satisfy `p`. -/
def filterKeys (p : κ → Bool) (m : SortedMap κ α) : SortedMap κ α where
  entries := m.entries.filter fun e => p e.1
  keysIncrease := m.keysIncrease.sublist List.filter_sublist

end SortedMap

/-- Keys in their order. -/
abbrev SortedSet (κ : Type u) [Ord κ] := SortedMap κ Unit

namespace SortedSet
variable {κ : Type u} [Ord κ]

/-- A key that is already there stays. -/
def insert [Std.TransOrd κ] (s : SortedSet κ) (key : κ) : SortedSet κ := SortedMap.insert s key ()

/-- One key alone. -/
def singleton [Std.TransOrd κ] (key : κ) : SortedSet κ := insert ∅ key

/-- Repeated keys are in it once. -/
def ofList [Std.TransOrd κ] (keys : List κ) : SortedSet κ := keys.foldl insert ∅

/-- The keys, in order. -/
def toList (s : SortedSet κ) : List κ := s.keys

end SortedSet

end QuorumRounds
