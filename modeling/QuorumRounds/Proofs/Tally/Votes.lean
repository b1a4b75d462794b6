import Mathlib.Data.List.Pairwise
import QuorumRounds.Proofs.Quorum
import QuorumRounds.Proofs.Tally.Leader

/-! # What a tally counts

A tally of votes from distinct senders puts every sender behind one candidate at most, and behind
none that it has not voted for (`Counts`). Equality of payloads need not be reflexive here, nor
symmetric or transitive: a sender stands behind a candidate that is its payload or equals it.

* `counts_ofVotes`: every tally of votes from distinct senders is such a tally.
* `Counts.majority_unique`: with fewer than two thresholds of voters, one candidate at most has a
  majority, and that candidate leads (`Counts.leader?_eq`).
* `Grows`: later votes keep every candidate and its senders.
* `mostVotes_add_le`: a vote is worth at most one. -/

namespace QuorumRounds.Tally
set_option autoImplicit false

variable {P κ : Type} [Payload P κ]

structure Counts (tally : Tally P) (votes : List (String × P)) : Prop where
  voters_eq : tally.voters.domain = (votes.map Prod.fst).toFinset
  disjoint : tally.candidates.Pairwise fun a b => Disjoint a.2.domain b.2.domain
  backed : ∀ c ∈ tally.candidates, ∀ s ∈ c.2.domain,
    ∃ q, (s, q) ∈ votes ∧ (q = c.1 ∨ Payload.same c.1 q = true)

theorem ofVotes_concat (votes : List (String × P)) (v : String × P) :
    ofVotes (votes ++ [v]) = (ofVotes votes).add v.1 v.2 := by
  rw [ofVotes, List.foldl_append]
  rfl

/-! ## One more supporter -/

section Support
variable {s : String} {p : P} {candidates : List (P × SortedSet String)}

theorem mem_support {c : P × SortedSet String} (h : c ∈ support s p candidates) :
    c ∈ candidates ∨
      (∃ senders, (c.1, senders) ∈ candidates ∧ Payload.same c.1 p = true ∧
        c.2 = SortedSet.insert senders s) ∨
      c = (p, SortedSet.singleton s) := by
  rcases support_cases s p candidates with
    ⟨before, q, senders, behind, heq, _, hsame, hsupport⟩ | ⟨_, hsupport⟩
  · rw [hsupport] at h
    rw [heq]
    rcases List.mem_append.1 h with hc | hc
    · exact .inl (by simp [hc])
    · rcases List.mem_cons.1 hc with rfl | hc
      · exact .inr (.inl ⟨senders, by simp, hsame, rfl⟩)
      · exact .inl (by simp [hc])
  · rw [hsupport] at h
    rcases List.mem_append.1 h with hc | hc
    · exact .inl hc
    · exact .inr (.inr (List.mem_singleton.1 hc))

/-- A sender that stands behind no candidate yet can be added to any of them. -/
theorem disjoint_support
    (h : candidates.Pairwise fun a b => Disjoint a.2.domain b.2.domain)
    (hfresh : ∀ c ∈ candidates, s ∉ c.2.domain) :
    (support s p candidates).Pairwise fun a b => Disjoint a.2.domain b.2.domain := by
  rcases support_cases s p candidates with
    ⟨before, q, senders, behind, heq, _, _, hsupport⟩ | ⟨_, hsupport⟩
  · rw [heq] at h hfresh
    rw [hsupport]
    rw [List.pairwise_append, List.pairwise_cons] at h ⊢
    obtain ⟨hbefore, ⟨hbehind, hrest⟩, hacross⟩ := h
    refine ⟨hbefore, ⟨?_, hrest⟩, ?_⟩
    · intro c hc
      rw [SortedSet.domain_insert, Finset.disjoint_insert_left]
      exact ⟨hfresh c (by simp [hc]), hbehind c hc⟩
    · intro c hc d hd
      rcases List.mem_cons.1 hd with rfl | hd
      · rw [SortedSet.domain_insert, Finset.disjoint_insert_right]
        exact ⟨hfresh c (by simp [hc]), hacross c hc (q, senders) (by simp)⟩
      · exact hacross c hc d (by simp [hd])
  · rw [hsupport, List.pairwise_append]
    refine ⟨h, List.pairwise_singleton _ _, ?_⟩
    intro c hc d hd
    rw [List.mem_singleton.1 hd, SortedSet.domain_singleton, Finset.disjoint_singleton_right]
    exact hfresh c hc

/-- No candidate is lost, and none of its senders. -/
theorem exists_mem_support {c : P × SortedSet String} (hc : c ∈ candidates) :
    ∃ senders, (c.1, senders) ∈ support s p candidates ∧ c.2.domain ⊆ senders.domain := by
  rcases support_cases s p candidates with
    ⟨before, q, senders, behind, heq, _, _, hsupport⟩ | ⟨_, hsupport⟩
  · rw [hsupport]
    rw [heq] at hc
    rcases List.mem_append.1 hc with hc | hc
    · exact ⟨c.2, by simp [hc], Finset.Subset.refl _⟩
    · rcases List.mem_cons.1 hc with rfl | hc
      · refine ⟨SortedSet.insert senders s, by simp, ?_⟩
        rw [SortedSet.domain_insert]
        exact Finset.subset_insert _ _
      · exact ⟨c.2, by simp [hc], Finset.Subset.refl _⟩
  · rw [hsupport]
    exact ⟨c.2, by simp [hc], Finset.Subset.refl _⟩

end Support

/-! ## Any votes -/

namespace Counts
variable {tally : Tally P} {votes : List (String × P)}

theorem empty : Counts (∅ : Tally P) [] where
  voters_eq := rfl
  disjoint := List.Pairwise.nil
  backed := by
    intro c hc
    cases hc

theorem hasVoted_iff (h : tally.Counts votes) {s : String} :
    tally.hasVoted s = true ↔ s ∈ votes.map Prod.fst := by
  rw [hasVoted, ← SortedMap.mem_domain, h.voters_eq, List.mem_toFinset]

theorem senders_subset (h : tally.Counts votes) {c : P × SortedSet String}
    (hc : c ∈ tally.candidates) : c.2.domain ⊆ tally.voters.domain := by
  intro s hs
  obtain ⟨q, hq, _⟩ := h.backed c hc s hs
  rw [h.voters_eq, List.mem_toFinset]
  exact List.mem_map.2 ⟨_, hq, rfl⟩

theorem add (h : tally.Counts votes) {s : String} {p : P} (hs : s ∉ votes.map Prod.fst) :
    (tally.add s p).Counts (votes ++ [(s, p)]) := by
  have hvoted : tally.hasVoted s = false := by
    rw [← Bool.not_eq_true, h.hasVoted_iff]
    exact hs
  have hfresh : ∀ c ∈ tally.candidates, s ∉ c.2.domain := by
    intro c hc hmem
    have hin := h.senders_subset hc hmem
    rw [h.voters_eq, List.mem_toFinset] at hin
    exact hs hin
  have hkept : ∀ c ∈ tally.candidates, ∀ u ∈ c.2.domain,
      ∃ q, (u, q) ∈ votes ++ [(s, p)] ∧ (q = c.1 ∨ Payload.same c.1 q = true) := by
    intro c hc u hu
    obtain ⟨q, hq, heq⟩ := h.backed c hc u hu
    exact ⟨q, List.mem_append_left _ hq, heq⟩
  rw [add_of_not_hasVoted hvoted]
  refine ⟨?_, disjoint_support h.disjoint hfresh, ?_⟩
  · rw [SortedSet.domain_insert, h.voters_eq]
    ext u
    simp
  · intro c hc u hu
    rcases mem_support hc with hc | ⟨senders, hmem, hsame, heq⟩ | rfl
    · exact hkept c hc u hu
    · rw [heq, SortedSet.domain_insert, Finset.mem_insert] at hu
      rcases hu with rfl | hu
      · exact ⟨p, by simp, .inr hsame⟩
      · exact hkept (c.1, senders) hmem u hu
    · rw [SortedSet.domain_singleton, Finset.mem_singleton] at hu
      subst hu
      exact ⟨p, by simp, .inl rfl⟩

end Counts

theorem counts_ofVotes {votes : List (String × P)} (h : (votes.map Prod.fst).Nodup) :
    (ofVotes votes).Counts votes := by
  induction votes using List.reverseRecOn with
  | nil => exact Counts.empty
  | append_singleton votes v ih =>
    rw [List.map_append, List.nodup_append] at h
    rw [ofVotes_concat]
    exact (ih h.1).add fun hmem => h.2.2 v.1 hmem v.1 (by simp) rfl

/-! ## Majorities -/

section Majorities
variable {tally : Tally P} {votes : List (String × P)} {threshold : Nat}
  {c d : P × SortedSet String}

theorem Counts.majority_unique (h : tally.Counts votes) (hfew : tally.voters.size < 2 * threshold)
    (hc : c ∈ tally.candidates) (hd : d ∈ tally.candidates) (hct : threshold ≤ c.2.size)
    (hdt : threshold ≤ d.2.size) : c = d := by
  by_contra hne
  have : Std.Symm fun a b : P × SortedSet String => Disjoint a.2.domain b.2.domain :=
    ⟨fun _ _ hab => hab.symm⟩
  have hdisjoint := h.disjoint.forall hc hd hne
  rw [← SortedMap.card_domain] at hct hdt
  obtain ⟨s, hsc, hsd⟩ := exists_mem_both (h.senders_subset hc) (h.senders_subset hd)
    (SortedMap.card_domain _).le hct hdt hfew
  exact Finset.disjoint_left.1 hdisjoint hsc hsd

theorem Counts.leader?_eq (h : tally.Counts votes) (hfew : tally.voters.size < 2 * threshold)
    (hc : c ∈ tally.candidates) (hct : threshold ≤ c.2.size) :
    tally.leader? = some (c.1, c.2.size) := by
  cases hlead : tally.leader? with
  | none =>
    rw [leader?_eq_none_iff.1 hlead] at hc
    cases hc
  | some leader =>
    obtain ⟨p, votes'⟩ := leader
    have hleads := leader?_eq_some hlead
    obtain ⟨senders, hmem, hsize⟩ := hleads.exists_mem
    have hle := hleads.size_le hc
    have heq : c = (p, senders) :=
      h.majority_unique hfew hc hmem hct (by change threshold ≤ senders.size; omega)
    rw [heq, ← hsize]

end Majorities

/-! ## Later votes -/

/-- Every candidate of the first tally stands in the second one, with the same senders and maybe
more. -/
def Grows (before after : Tally P) : Prop :=
  ∀ c ∈ before.candidates, ∃ senders, (c.1, senders) ∈ after.candidates ∧
    c.2.domain ⊆ senders.domain

namespace Grows
variable {a b c : Tally P}

omit [Payload P κ] in
theorem refl (tally : Tally P) : Grows tally tally := fun c hc => ⟨c.2, hc, Finset.Subset.refl _⟩

omit [Payload P κ] in
theorem trans (hab : Grows a b) (hbc : Grows b c) : Grows a c := by
  intro x hx
  obtain ⟨senders, hmem, hsub⟩ := hab x hx
  obtain ⟨more, hmore, hsub'⟩ := hbc (x.1, senders) hmem
  exact ⟨more, hmore, hsub.trans hsub'⟩

theorem add (tally : Tally P) (s : String) (p : P) : Grows tally (tally.add s p) := by
  cases hvoted : tally.hasVoted s with
  | true =>
    rw [add_of_hasVoted hvoted]
    exact refl tally
  | false =>
    rw [add_of_not_hasVoted hvoted]
    intro x hx
    exact exists_mem_support hx

omit [Payload P κ] in
theorem hasMajority (h : Grows a b) {threshold : Nat} (ha : a.hasMajority threshold = true) :
    b.hasMajority threshold = true := by
  rw [hasMajority_iff] at ha ⊢
  obtain ⟨x, hx, hle⟩ := ha
  obtain ⟨senders, hmem, hsub⟩ := h x hx
  refine ⟨(x.1, senders), hmem, hle.trans ?_⟩
  rw [← SortedMap.card_domain, ← SortedMap.card_domain]
  exact Finset.card_le_card hsub

/-- A leader with a majority stays the leader, as long as no second candidate can have one. -/
theorem leader? (h : Grows a b) {votes : List (String × P)} (hb : b.Counts votes)
    {threshold count : Nat} {p : P} (hfew : b.voters.size < 2 * threshold)
    (hlead : a.leader? = some (p, count)) (hcount : threshold ≤ count) :
    ∃ more, b.leader? = some (p, more) ∧ threshold ≤ more := by
  obtain ⟨senders, hmem, hsize⟩ := (leader?_eq_some hlead).exists_mem
  obtain ⟨more, hmore, hsub⟩ := h _ hmem
  have hle := Finset.card_le_card hsub
  rw [SortedMap.card_domain, SortedMap.card_domain] at hle
  have hmajority : threshold ≤ more.size := by
    rw [hsize] at hle
    exact hcount.trans hle
  exact ⟨more.size, hb.leader?_eq hfew hmore hmajority, hmajority⟩

end Grows

theorem size_insert_le (senders : SortedSet String) (s : String) :
    (SortedSet.insert senders s).size ≤ senders.size + 1 := by
  rw [← SortedMap.card_domain, ← SortedMap.card_domain, SortedSet.domain_insert]
  exact Finset.card_insert_le _ _

theorem size_singleton (s : String) : (SortedSet.singleton s).size = 1 := by
  rw [← SortedMap.card_domain, SortedSet.domain_singleton, Finset.card_singleton]

/-- One vote more is at most one more for the leader. -/
theorem mostVotes_add_le (tally : Tally P) (s : String) (p : P) :
    (tally.add s p).mostVotes ≤ tally.mostVotes + 1 := by
  cases hvoted : tally.hasVoted s with
  | true =>
    rw [add_of_hasVoted hvoted]
    omega
  | false =>
    by_contra hmore
    have hmajority : (tally.add s p).hasMajority (tally.mostVotes + 2) = true :=
      (hasMajority_iff_le_mostVotes (by omega)).2 (by omega)
    have hle : ∀ c ∈ tally.candidates, c.2.size ≤ tally.mostVotes := by
      intro c hc
      by_contra hlt
      have hbefore : tally.hasMajority (tally.mostVotes + 1) = true :=
        hasMajority_iff.2 ⟨c, hc, by omega⟩
      rw [hasMajority_iff_le_mostVotes (by omega)] at hbefore
      omega
    rw [add_of_not_hasVoted hvoted, hasMajority_iff] at hmajority
    obtain ⟨c, hc, hsize⟩ := hmajority
    rcases mem_support hc with hold | ⟨senders, hold, _, heq⟩ | rfl
    · have := hle c hold
      omega
    · have hbound : senders.size ≤ tally.mostVotes := hle (c.1, senders) hold
      have hgrown := size_insert_le senders s
      rw [← heq] at hgrown
      omega
    · rw [size_singleton] at hsize
      omega

end QuorumRounds.Tally
