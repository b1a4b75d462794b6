import QuorumRounds.Duration

/-! # Pending timeouts

Events that fire at a deadline, the earliest first, and those of one deadline in the order in which
they were scheduled. Deadlines are block timestamps. The entries are kept in scheduling order. -/

namespace QuorumRounds
set_option autoImplicit false

/-- Deadlines and their events. -/
structure Timeouts (ε : Type) where
  entries : List (Duration × ε)
deriving DecidableEq, Repr

namespace Timeouts
variable {ε : Type}

/-- Nothing is pending. -/
def empty : Timeouts ε := ⟨[]⟩

instance : EmptyCollection (Timeouts ε) := ⟨empty⟩

/-- The number of events that are pending. -/
def size (timeouts : Timeouts ε) : Nat := timeouts.entries.length

def isEmpty (timeouts : Timeouts ε) : Bool := timeouts.entries.isEmpty

/-- One more event, behind those of the same deadline. -/
def schedule (timeouts : Timeouts ε) (deadline : Duration) (event : ε) : Timeouts ε :=
  ⟨timeouts.entries ++ [(deadline, event)]⟩

/-- The first of the entries with the least deadline. -/
def earliestOf : List (Duration × ε) → Option (Duration × ε)
  | [] => none
  | entry :: rest =>
    match earliestOf rest with
    | some later => if later.1 < entry.1 then some later else some entry
    | none => some entry

/-- The entry that expires next. -/
def earliest? (timeouts : Timeouts ε) : Option (Duration × ε) := earliestOf timeouts.entries

/-- Takes out the earliest entry if it is due at or before `now`. -/
def popExpired (timeouts : Timeouts ε) (now : Duration) : Option (Duration × ε) × Timeouts ε :=
  match timeouts.earliest? with
  | some (deadline, event) =>
    if deadline ≤ now then
      (some (deadline, event), ⟨timeouts.entries.eraseP fun e => decide (e.1 = deadline)⟩)
    else (none, timeouts)
  | none => (none, timeouts)

end Timeouts

end QuorumRounds
