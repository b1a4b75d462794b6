import QuorumRounds.Timeouts.Calls

/-! # Pending timeouts as a heap

A heap gives out a least item and keeps the others in whatever layout. Items are ranked by deadline,
then by the number under which they were scheduled, a 64-bit word that is never set back, and then
by event. -/

namespace QuorumRounds.Timeouts
set_option autoImplicit false

variable {ε : Type}

/-- An entry with the number under which it was scheduled. -/
structure Item (ν ε : Type) where
  deadline : Duration
  number : ν
  event : ε

namespace Item

/-- The entry itself. -/
def entry {ν : Type} (item : Item ν ε) : Duration × ε := (item.deadline, item.event)

/-- By deadline, number and event. -/
def rank [Ord ε] (a b : Item UInt64 ε) : Ordering :=
  (compare a.deadline.nanos b.deadline.nanos).then
    ((compare a.number.toNat b.number.toNat).then (compare a.event b.event))

end Item

/-- Takes out a least item. -/
def takeLeast [Ord ε] : List (Item UInt64 ε) → Option (Item UInt64 ε × List (Item UInt64 ε))
  | [] => none
  | item :: rest =>
    match takeLeast rest with
    | none => some (item, [])
    | some (least, others) =>
      if Item.rank least item = .lt then some (least, item :: others) else some (item, least :: others)

/-- The items of a heap, and the number of the next one. -/
structure Ranked (ε : Type) where
  items : List (Item UInt64 ε)
  next : UInt64

namespace Ranked

/-- Nothing has been scheduled. -/
def empty : Ranked ε := ⟨[], 0⟩

instance : EmptyCollection (Ranked ε) := ⟨empty⟩

/-- Makes a call. -/
def respond [Ord ε] (ranked : Ranked ε) : Call ε → Checked (Answer ε × Ranked ε)
  | .schedule deadline event => do
    let next ← Word.succ ranked.next
    pure (.done, ⟨⟨deadline, ranked.next, event⟩ :: ranked.items, next⟩)
  | .popExpired now =>
    match takeLeast ranked.items with
    | some (least, others) =>
      if least.deadline ≤ now then .ok (.entry (some least.entry), ⟨others, ranked.next⟩)
      else .ok (.entry none, ranked)
    | none => .ok (.entry none, ranked)
  | .earliest => .ok (.entry ((takeLeast ranked.items).map fun found => found.1.entry), ranked)
  | .size => .ok (.count ranked.items.length, ranked)
  | .cancelAll => .ok (.done, ⟨[], ranked.next⟩)

end Ranked

end QuorumRounds.Timeouts
