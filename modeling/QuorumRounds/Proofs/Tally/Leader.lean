import QuorumRounds.Proofs.SortedMap.Domain
import QuorumRounds.Tally

/-! # Who leads a tally

* `support_cases`: a vote joins the first candidate that it equals, or stands behind a new one.
* `leader?_eq_some`: the leader has the most senders, and more than every candidate before it.
* `hasMajority_iff`: a threshold is met when some candidate meets it, that is, when it is at most the
  votes of the leader (`hasMajority_iff_le_mostVotes`). -/

namespace QuorumRounds.Tally
set_option autoImplicit false

variable {P κ : Type}

/-! ## One vote -/

theorem support_cases [Payload P κ] (sender : String) (payload : P)
    (candidates : List (P × SortedSet String)) :
    (∃ before p senders behind, candidates = before ++ (p, senders) :: behind ∧
        (∀ c ∈ before, Payload.same c.1 payload = false) ∧ Payload.same p payload = true ∧
        support sender payload candidates =
          before ++ (p, SortedSet.insert senders sender) :: behind) ∨
      ((∀ c ∈ candidates, Payload.same c.1 payload = false) ∧
        support sender payload candidates =
          candidates ++ [(payload, SortedSet.singleton sender)]) := by
  induction candidates with
  | nil => exact .inr ⟨by simp, rfl⟩
  | cons c rest ih =>
    obtain ⟨p, senders⟩ := c
    rw [support]
    by_cases hsame : Payload.same p payload = true
    · rw [if_pos hsame]
      exact .inl ⟨[], p, senders, rest, rfl, by simp, hsame, rfl⟩
    · rw [if_neg hsame]
      rw [Bool.not_eq_true] at hsame
      rcases ih with ⟨before, q, others, behind, rfl, hbefore, hq, hsupport⟩ | ⟨hrest, hsupport⟩
      · refine .inl ⟨(p, senders) :: before, q, others, behind, rfl, ?_, hq, by simp [hsupport]⟩
        rintro c (_ | ⟨_, hc⟩)
        · exact hsame
        · exact hbefore c hc
      · refine .inr ⟨?_, by simp [hsupport]⟩
        rintro c (_ | ⟨_, hc⟩)
        · exact hsame
        · exact hrest c hc

/-- A vote counts if the sender has not voted before. -/
theorem vote_fst [Payload P κ] (tally : Tally P) (sender : String) (payload : P) :
    (tally.vote sender payload).1 = !tally.hasVoted sender := by
  rw [vote]
  split
  case isTrue h => rw [h, Bool.not_true]
  case isFalse h => rw [Bool.eq_false_of_not_eq_true h, Bool.not_false]

theorem vote_of_hasVoted [Payload P κ] {tally : Tally P} {sender : String} {payload : P}
    (h : tally.hasVoted sender = true) : tally.vote sender payload = (false, tally) := by
  rw [vote, if_pos h]

theorem add_of_hasVoted [Payload P κ] {tally : Tally P} {sender : String} {payload : P}
    (h : tally.hasVoted sender = true) : tally.add sender payload = tally := by
  rw [add, vote_of_hasVoted h]

theorem add_of_not_hasVoted [Payload P κ] {tally : Tally P} {sender : String} {payload : P}
    (h : tally.hasVoted sender = false) :
    tally.add sender payload =
      ⟨support sender payload tally.candidates, SortedSet.insert tally.voters sender⟩ := by
  rw [add, vote, if_neg (by simp [h])]

/-! ## The leader -/

/-- The first of the candidates with the most senders. -/
def Leads (p : P) (votes : Nat) (candidates : List (P × SortedSet String)) : Prop :=
  ∃ before senders behind, candidates = before ++ (p, senders) :: behind ∧ senders.size = votes ∧
    (∀ c ∈ before, c.2.size < votes) ∧ ∀ c ∈ behind, c.2.size ≤ votes

theorem Leads.size_le {p : P} {votes : Nat} {candidates : List (P × SortedSet String)}
    (h : Leads p votes candidates) {c : P × SortedSet String} (hc : c ∈ candidates) :
    c.2.size ≤ votes := by
  obtain ⟨before, senders, behind, rfl, hsize, hbefore, hbehind⟩ := h
  rcases List.mem_append.1 hc with hc | hc
  · exact (hbefore c hc).le
  · rcases List.mem_cons.1 hc with rfl | hc
    · exact hsize.le
    · exact hbehind c hc

theorem Leads.exists_mem {p : P} {votes : Nat} {candidates : List (P × SortedSet String)}
    (h : Leads p votes candidates) : ∃ senders, (p, senders) ∈ candidates ∧ senders.size = votes := by
  obtain ⟨before, senders, behind, rfl, hsize, _, _⟩ := h
  exact ⟨senders, by simp, hsize⟩

theorem leader?_concat (candidates : List (P × SortedSet String)) (c : P × SortedSet String)
    (voters others : SortedSet String) :
    leader? ⟨candidates ++ [c], voters⟩ =
      match leader? ⟨candidates, others⟩ with
      | some (p, votes) => if c.2.size ≤ votes then some (p, votes) else some (c.1, c.2.size)
      | none => some (c.1, c.2.size) := by
  simp only [leader?, List.foldl_append, List.foldl_cons, List.foldl_nil]
  generalize List.foldl _ none candidates = best
  cases best <;> rfl

theorem leader?_spec (candidates : List (P × SortedSet String)) (voters : SortedSet String) :
    match leader? ⟨candidates, voters⟩ with
    | some (p, votes) => Leads p votes candidates
    | none => candidates = [] := by
  induction candidates using List.reverseRecOn with
  | nil => rfl
  | append_singleton candidates c ih =>
    rw [leader?_concat candidates c voters voters]
    cases hlead : leader? ⟨candidates, voters⟩ with
    | none =>
      rw [hlead] at ih
      subst ih
      exact ⟨[], c.2, [], rfl, rfl, by simp, by simp⟩
    | some leader =>
      obtain ⟨p, votes⟩ := leader
      rw [hlead] at ih
      by_cases hle : c.2.size ≤ votes
      · simp only [hle, if_true]
        obtain ⟨before, senders, behind, rfl, hsize, hbefore, hbehind⟩ := ih
        refine ⟨before, senders, behind ++ [c], by simp, hsize, hbefore, ?_⟩
        intro d hd
        rcases List.mem_append.1 hd with hd | hd
        · exact hbehind d hd
        · rw [List.mem_singleton.1 hd]
          exact hle
      · simp only [hle, if_false]
        refine ⟨candidates, c.2, [], rfl, rfl, fun d hd => ?_, by simp⟩
        have := ih.size_le hd
        omega

theorem leader?_eq_some {tally : Tally P} {p : P} {votes : Nat}
    (h : tally.leader? = some (p, votes)) : Leads p votes tally.candidates := by
  have hspec := leader?_spec tally.candidates tally.voters
  rw [h] at hspec
  exact hspec

theorem leader?_eq_none_iff {tally : Tally P} : tally.leader? = none ↔ tally.candidates = [] := by
  constructor
  · intro h
    have hspec := leader?_spec tally.candidates tally.voters
    rw [h] at hspec
    exact hspec
  · intro h
    rw [leader?, h]
    rfl

theorem hasMajority_of_leader? {tally : Tally P} {p : P} {votes threshold : Nat}
    (hlead : tally.leader? = some (p, votes)) (hvotes : threshold ≤ votes) :
    tally.hasMajority threshold = true := by
  rw [hasMajority, hlead]
  exact decide_eq_true hvotes

theorem exists_leader? {tally : Tally P} {threshold : Nat}
    (h : tally.hasMajority threshold = true) :
    ∃ p votes, tally.leader? = some (p, votes) ∧ threshold ≤ votes := by
  rw [hasMajority] at h
  cases hlead : tally.leader? with
  | none => simp [hlead] at h
  | some leader =>
    obtain ⟨p, votes⟩ := leader
    simp only [hlead, decide_eq_true_eq] at h
    exact ⟨p, votes, rfl, h⟩

theorem hasMajority_iff {tally : Tally P} {threshold : Nat} :
    tally.hasMajority threshold = true ↔ ∃ c ∈ tally.candidates, threshold ≤ c.2.size := by
  constructor
  · intro h
    obtain ⟨p, votes, hlead, hvotes⟩ := exists_leader? h
    obtain ⟨senders, hmem, hsize⟩ := (leader?_eq_some hlead).exists_mem
    exact ⟨(p, senders), hmem, hvotes.trans hsize.ge⟩
  · rintro ⟨c, hc, hle⟩
    cases hlead : tally.leader? with
    | none =>
      rw [leader?_eq_none_iff.1 hlead] at hc
      cases hc
    | some leader =>
      exact hasMajority_of_leader? hlead (hle.trans ((leader?_eq_some hlead).size_le hc))

theorem hasMajority_iff_le_mostVotes {tally : Tally P} {threshold : Nat} (h : 0 < threshold) :
    tally.hasMajority threshold = true ↔ threshold ≤ tally.mostVotes := by
  rw [hasMajority, mostVotes]
  cases tally.leader? with
  | none => simp [h.ne']
  | some leader => simp

theorem mostVotes_congr {tally other : Tally P}
    (h : ∀ threshold, tally.hasMajority threshold = other.hasMajority threshold) :
    tally.mostVotes = other.mostVotes := by
  have hiff : ∀ n, 0 < n → (n ≤ tally.mostVotes ↔ n ≤ other.mostVotes) := by
    intro n hn
    rw [← hasMajority_iff_le_mostVotes hn, ← hasMajority_iff_le_mostVotes hn, h]
  apply Nat.le_antisymm
  · rcases Nat.eq_zero_or_pos tally.mostVotes with hzero | hpos
    · omega
    · exact (hiff _ hpos).1 (Nat.le_refl _)
  · rcases Nat.eq_zero_or_pos other.mostVotes with hzero | hpos
    · omega
    · exact (hiff _ hpos).2 (Nat.le_refl _)

end QuorumRounds.Tally
