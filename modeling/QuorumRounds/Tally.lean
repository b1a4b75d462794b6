import QuorumRounds.Payload.Basic

/-! # Counting votes

A `Tally` groups senders by the payload they voted for. Payloads may hold floating-point numbers, so
candidates are matched with `Payload.same` and stand in the order in which they were first seen,
which makes ties resolve the same way on every replica.

* `Tally.vote`: the first vote of a sender counts, any later one changes nothing.
* `Tally.leader?`: the candidate with the most senders, of several the first seen.
* `Tally.isMajorityPossible`: whether the leader could still reach a threshold if every participant
  who has not voted chose it.
-/

namespace QuorumRounds
set_option autoImplicit false

structure Tally (P : Type) where
  /-- The payloads that have been voted for, in the order in which they were first seen, with the
  senders behind each. -/
  candidates : List (P × SortedSet String)
  voters : SortedSet String

namespace Tally
variable {P κ : Type} [Payload P κ]

/-- Nobody has voted. -/
def empty {P : Type} : Tally P := ⟨[], ∅⟩

instance {P : Type} : EmptyCollection (Tally P) := ⟨empty⟩

/-- The sender joins the first candidate equal to the payload, or stands behind a new one. -/
def support (sender : String) (payload : P) :
    List (P × SortedSet String) → List (P × SortedSet String)
  | [] => [(payload, SortedSet.singleton sender)]
  | (candidate, senders) :: rest =>
    if Payload.same candidate payload then (candidate, senders.insert sender) :: rest
    else (candidate, senders) :: support sender payload rest

/-- The sender is among the voters. -/
def hasVoted {P : Type} (tally : Tally P) (sender : String) : Bool := tally.voters.contains sender

/-- Whether the vote counts, and the tally after it. -/
def vote (tally : Tally P) (sender : String) (payload : P) : Bool × Tally P :=
  if tally.hasVoted sender then (false, tally)
  else (true, ⟨support sender payload tally.candidates, tally.voters.insert sender⟩)

/-- The tally after a vote. -/
def add (tally : Tally P) (sender : String) (payload : P) : Tally P :=
  (tally.vote sender payload).2

/-- Counts the votes in their order. -/
def ofVotes (votes : List (String × P)) : Tally P :=
  votes.foldl (fun tally vote => tally.add vote.1 vote.2) ∅

/-- The candidate with the most senders, and how many they are. -/
def leader? {P : Type} (tally : Tally P) : Option (P × Nat) :=
  tally.candidates.foldl (fun best entry =>
    match best with
    | some (_, votes) => if entry.2.size ≤ votes then best else some (entry.1, entry.2.size)
    | none => some (entry.1, entry.2.size)) none

/-- The number of votes for the leader, zero without any. -/
def mostVotes {P : Type} (tally : Tally P) : Nat :=
  match tally.leader? with
  | some (_, votes) => votes
  | none => 0

/-- With no candidate there is no majority, not even for a threshold of zero. -/
def hasMajority {P : Type} (tally : Tally P) (threshold : Nat) : Bool :=
  match tally.leader? with
  | some (_, votes) => threshold ≤ votes
  | none => false

/-- Whoever has not voted is taken to vote for the leader. -/
def isMajorityPossible {P : Type} (tally : Tally P) (participants threshold : Nat) : Bool :=
  threshold ≤ tally.mostVotes + (participants - tally.voters.size)

end Tally

end QuorumRounds
