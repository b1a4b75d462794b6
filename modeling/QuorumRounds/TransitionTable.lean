import QuorumRounds.SortedMap.Basic

/-! # Transition tables

Which round follows which, on which event. For one round and one event the last edge given
counts. -/

namespace QuorumRounds
set_option autoImplicit false

/-- The successor of each round on each event. -/
structure TransitionTable (ρ ε : Type) [Ord ρ] [Ord ε] where
  edges : SortedMap ρ (SortedMap ε ρ)

namespace TransitionTable
variable {ρ ε : Type} [Ord ρ] [Ord ε]

/-- The round that follows, if the event leads to one. -/
def next? (table : TransitionTable ρ ε) (round : ρ) (event : ε) : Option ρ :=
  (table.edges.get? round).bind (·.get? event)

/-- The events on which the round is left, in their order. -/
def eventsFrom (table : TransitionTable ρ ε) (round : ρ) : List ε :=
  ((table.edges.get? round).getD ∅).keys

variable [Std.TransOrd ρ] [Std.TransOrd ε]

/-- Adds an edge, in place of another one of this round and event. -/
def insert (table : TransitionTable ρ ε) (round : ρ) (event : ε) (next : ρ) :
    TransitionTable ρ ε :=
  ⟨table.edges.insert round (((table.edges.get? round).getD ∅).insert event next)⟩

/-- Adds the edges in their order. -/
def ofList (edges : List (ρ × ε × ρ)) : TransitionTable ρ ε :=
  edges.foldl (fun table edge => table.insert edge.1 edge.2.1 edge.2.2) ⟨∅⟩

omit [Std.TransOrd ε] in
/-- Every round that an edge leaves or enters. -/
def rounds (table : TransitionTable ρ ε) : SortedSet ρ :=
  SortedSet.ofList (table.edges.entries.flatMap fun e => e.1 :: e.2.values)

end TransitionTable

end QuorumRounds
