import QuorumRounds.Proofs.Payload.Same
import QuorumRounds.Proofs.Tally.Votes

/-! # The groups of equal votes

When equality of payloads is symmetric and transitive, the candidates of a tally stand for the groups
of equal votes: no two candidates are equal, and every vote is behind one of them (`Groups`). A
payload that differs from itself is a candidate with one sender.

So the size of a group depends on the votes alone, and not on the order in which they came.

* `weight votes p`: the size of the group that a vote for `p` belongs to.
* `hasMajority_ofVotes_iff`: a threshold is met when the group of some vote meets it.
* `hasMajority_perm`, `mostVotes_perm`: the votes may come in any order.
* `Matching.hasMajority_eq`: each vote may be exchanged for an equal one. -/

namespace QuorumRounds.Tally
set_option autoImplicit false

variable {P κ : Type} [Payload P κ]

structure Groups (tally : Tally P) (votes : List (String × P)) : Prop extends
    Counts tally votes where
  apart : (tally.candidates.map Prod.fst).Pairwise fun p q => Payload.same p q = false
  covered : ∀ v ∈ votes, ∃ c ∈ tally.candidates, v.1 ∈ c.2.domain ∧
    (v.2 = c.1 ∨ Payload.same c.1 v.2 = true)
  cast : ∀ c ∈ tally.candidates, ∃ s, (s, c.1) ∈ votes
  alone : ∀ c ∈ tally.candidates, Payload.same c.1 c.1 = false → c.2.size = 1

/-- The number of votes that equal the payload, or one if not even its own vote does. -/
def weight (votes : List (String × P)) (p : P) : Nat :=
  max 1 (votes.countP fun v => Payload.same p v.2)

/-! ## One more vote -/

section Support
variable {s : String} {p : P} {candidates : List (P × SortedSet String)}

theorem apart_support (h : (candidates.map Prod.fst).Pairwise fun p q => Payload.same p q = false) :
    ((support s p candidates).map Prod.fst).Pairwise fun p q => Payload.same p q = false := by
  rcases support_cases s p candidates with
    ⟨before, q, senders, behind, rfl, _, _, hsupport⟩ | ⟨hnone, hsupport⟩
  · rw [hsupport]
    simpa using h
  · rw [hsupport, List.map_append, List.pairwise_append]
    refine ⟨h, List.pairwise_singleton _ _, ?_⟩
    intro q hq r hr
    obtain ⟨c, hc, rfl⟩ := List.mem_map.1 hq
    rw [List.map_singleton, List.mem_singleton] at hr
    rw [hr]
    exact hnone c hc

theorem covered_support (s : String) (p : P) (candidates : List (P × SortedSet String)) :
    ∃ c ∈ support s p candidates, s ∈ c.2.domain ∧ (p = c.1 ∨ Payload.same c.1 p = true) := by
  rcases support_cases s p candidates with
    ⟨before, q, senders, behind, _, _, hsame, hsupport⟩ | ⟨_, hsupport⟩
  · refine ⟨(q, SortedSet.insert senders s), by simp [hsupport], ?_, .inr hsame⟩
    rw [SortedSet.domain_insert]
    exact Finset.mem_insert_self _ _
  · refine ⟨(p, SortedSet.singleton s), by simp [hsupport], ?_, .inl rfl⟩
    rw [SortedSet.domain_singleton]
    exact Finset.mem_singleton_self _

end Support

/-- A candidate that equals another payload equals itself. -/
theorem same_self [LawfulPayload P] {p q : P} (h : Payload.same p q = true) :
    Payload.same p p = true := LawfulPayload.same_trans h (LawfulPayload.same_symm h)

/-- What equals a vote equals the candidate that the vote is for. -/
theorem same_candidate [LawfulPayload P] {p q r : P} (h : Payload.same p q = true)
    (hr : q = r ∨ Payload.same r q = true) : Payload.same p r = true := by
  rcases hr with rfl | hrq
  · exact h
  · exact LawfulPayload.same_trans h (LawfulPayload.same_symm hrq)

namespace Groups
variable {tally : Tally P} {votes : List (String × P)}

theorem empty : Groups (∅ : Tally P) [] where
  toCounts := Counts.empty
  apart := List.Pairwise.nil
  covered := by
    intro v hv
    cases hv
  cast := by
    intro c hc
    cases hc
  alone := by
    intro c hc
    cases hc

theorem add [LawfulPayload P] (h : tally.Groups votes) {s : String} {p : P}
    (hs : s ∉ votes.map Prod.fst) : (tally.add s p).Groups (votes ++ [(s, p)]) := by
  have hvoted : tally.hasVoted s = false := by
    rw [← Bool.not_eq_true, h.hasVoted_iff]
    exact hs
  have hcounts := h.toCounts.add (p := p) hs
  rw [add_of_not_hasVoted hvoted] at hcounts ⊢
  refine ⟨hcounts, apart_support h.apart, ?_, ?_, ?_⟩
  · intro v hv
    rcases List.mem_append.1 hv with hold | hnew
    · obtain ⟨c, hc, hmem, heq⟩ := h.covered v hold
      obtain ⟨senders, hsenders, hsub⟩ := exists_mem_support (s := s) (p := p) hc
      exact ⟨(c.1, senders), hsenders, hsub hmem, heq⟩
    · rw [List.mem_singleton.1 hnew]
      exact covered_support s p tally.candidates
  · intro c hc
    rcases mem_support hc with hold | ⟨senders, hold, _, _⟩ | rfl
    · obtain ⟨u, hu⟩ := h.cast c hold
      exact ⟨u, List.mem_append_left _ hu⟩
    · obtain ⟨u, hu⟩ := h.cast (c.1, senders) hold
      exact ⟨u, List.mem_append_left _ hu⟩
    · exact ⟨s, by simp⟩
  · intro c hc hself
    rcases mem_support hc with hold | ⟨senders, _, hsame, _⟩ | rfl
    · exact h.alone c hold hself
    · rw [same_self hsame] at hself
      cases hself
    · exact size_singleton s

/-! ## The size of a group -/

variable [LawfulPayload P]

/-- Equal candidates are one candidate. -/
theorem eq_of_same (h : tally.Groups votes) {c d : P × SortedSet String}
    (hc : c ∈ tally.candidates) (hd : d ∈ tally.candidates)
    (hsame : Payload.same c.1 d.1 = true) : c = d := by
  by_contra hne
  have hapart := List.pairwise_map.1 h.apart
  have : Std.Symm fun a b : P × SortedSet String => Payload.same a.1 b.1 = false := by
    refine ⟨fun a b hab => ?_⟩
    rw [← Bool.not_eq_true] at hab ⊢
    exact fun hba => hab (LawfulPayload.same_symm hba)
  have hfalse := hapart.forall hc hd hne
  rw [hsame] at hfalse
  cases hfalse

/-- Everyone behind a candidate that equals itself has sent an equal payload, and everyone who has
sent one is behind it. -/
theorem mem_domain_iff (h : tally.Groups votes) {c : P × SortedSet String}
    (hc : c ∈ tally.candidates) (hself : Payload.same c.1 c.1 = true) {s : String} :
    s ∈ c.2.domain ↔ ∃ v ∈ votes, Payload.same c.1 v.2 = true ∧ v.1 = s := by
  constructor
  · intro hs
    obtain ⟨q, hq, heq⟩ := h.backed c hc s hs
    refine ⟨(s, q), hq, ?_, rfl⟩
    rcases heq with rfl | hsame
    · exact hself
    · exact hsame
  · rintro ⟨v, hv, hsame, rfl⟩
    obtain ⟨d, hd, hmem, heq⟩ := h.covered v hv
    rw [h.eq_of_same hc hd (same_candidate hsame heq)]
    exact hmem

theorem size_eq_weight (h : tally.Groups votes) (hnodup : (votes.map Prod.fst).Nodup)
    {c : P × SortedSet String} (hc : c ∈ tally.candidates) : c.2.size = weight votes c.1 := by
  cases hself : Payload.same c.1 c.1 with
  | false =>
    have hnone : (votes.countP fun v => Payload.same c.1 v.2) = 0 := by
      rw [List.countP_eq_zero]
      intro v _ hsame
      rw [same_self hsame] at hself
      cases hself
    rw [h.alone c hc hself, weight, hnone]
    rfl
  | true =>
    let equal := votes.filter fun v => Payload.same c.1 v.2
    have hsenders : c.2.domain = (equal.map Prod.fst).toFinset := by
      ext s
      rw [h.mem_domain_iff hc hself, List.mem_toFinset, List.mem_map]
      simp only [equal, List.mem_filter, and_assoc]
    have hsub : (equal.map Prod.fst).Nodup :=
      hnodup.sublist (List.Sublist.map _ List.filter_sublist)
    have hsize : c.2.size = votes.countP fun v => Payload.same c.1 v.2 := by
      rw [← SortedMap.card_domain, hsenders, List.toFinset_card_of_nodup hsub, List.length_map,
        List.countP_eq_length_filter]
    obtain ⟨s, hs⟩ := h.cast c hc
    have hpos : 0 < votes.countP fun v => Payload.same c.1 v.2 :=
      List.countP_pos_iff.2 ⟨_, hs, hself⟩
    rw [hsize, weight]
    omega

end Groups

theorem groups_ofVotes [LawfulPayload P] {votes : List (String × P)}
    (h : (votes.map Prod.fst).Nodup) : (ofVotes votes).Groups votes := by
  induction votes using List.reverseRecOn with
  | nil => exact Groups.empty
  | append_singleton votes v ih =>
    rw [List.map_append, List.nodup_append] at h
    rw [ofVotes_concat]
    exact (ih h.1).add fun hmem => h.2.2 v.1 hmem v.1 (by simp) rfl

/-! ## Votes in any order -/

section Order
variable [LawfulPayload P] {votes others : List (String × P)}

/-- Equal payloads are in one group. -/
theorem weight_eq_of_same {p q : P} (h : Payload.same p q = true) :
    weight votes p = weight votes q := by
  have hpq : ∀ v ∈ votes, Payload.same p v.2 = true ↔ Payload.same q v.2 = true := fun v _ =>
    ⟨LawfulPayload.same_trans (LawfulPayload.same_symm h), LawfulPayload.same_trans h⟩
  rw [weight, weight, List.countP_congr hpq]

/-- As many votes as there are for a payload are behind the candidate that equals it. -/
theorem Groups.le_countP_iff {tally : Tally P} (h : tally.Groups votes)
    (hnodup : (votes.map Prod.fst).Nodup) {p : P} {n : Nat} (hn : 1 ≤ n) :
    (n ≤ votes.countP fun v => Payload.same p v.2) ↔
      ∃ c ∈ tally.candidates, Payload.same p c.1 = true ∧ n ≤ c.2.size := by
  constructor
  · intro hle
    have hpos : 0 < votes.countP fun v => Payload.same p v.2 := Nat.lt_of_lt_of_le hn hle
    obtain ⟨v, hv, hsame⟩ := List.countP_pos_iff.1 hpos
    obtain ⟨c, hc, _, heq⟩ := h.covered v hv
    have hpc := same_candidate hsame heq
    refine ⟨c, hc, hpc, ?_⟩
    rw [h.size_eq_weight hnodup hc, ← weight_eq_of_same hpc, weight]
    omega
  · rintro ⟨c, hc, hpc, hle⟩
    obtain ⟨s, hs⟩ := h.cast c hc
    have hpos : 0 < votes.countP fun v => Payload.same p v.2 := List.countP_pos_iff.2 ⟨_, hs, hpc⟩
    rw [h.size_eq_weight hnodup hc, ← weight_eq_of_same hpc, weight] at hle
    omega

theorem hasMajority_ofVotes_iff (h : (votes.map Prod.fst).Nodup) {threshold : Nat} :
    (ofVotes votes).hasMajority threshold = true ↔ ∃ v ∈ votes, threshold ≤ weight votes v.2 := by
  have hgroups := groups_ofVotes h
  rw [hasMajority_iff]
  constructor
  · rintro ⟨c, hc, hle⟩
    obtain ⟨s, hs⟩ := hgroups.cast c hc
    rw [hgroups.size_eq_weight h hc] at hle
    exact ⟨(s, c.1), hs, hle⟩
  · rintro ⟨v, hv, hle⟩
    obtain ⟨c, hc, _, heq⟩ := hgroups.covered v hv
    refine ⟨c, hc, ?_⟩
    rw [hgroups.size_eq_weight h hc]
    rcases heq with heq | hsame
    · rw [← heq]
      exact hle
    · rw [weight_eq_of_same hsame]
      exact hle

omit [LawfulPayload P] in
theorem weight_perm (h : votes.Perm others) (p : P) : weight votes p = weight others p := by
  rw [weight, weight, h.countP_eq]

theorem hasMajority_perm (h : votes.Perm others) (hnodup : (votes.map Prod.fst).Nodup)
    (threshold : Nat) :
    (ofVotes votes).hasMajority threshold = (ofVotes others).hasMajority threshold := by
  have hnodup' : (others.map Prod.fst).Nodup := (h.map _).nodup_iff.1 hnodup
  rw [Bool.eq_iff_iff, hasMajority_ofVotes_iff hnodup, hasMajority_ofVotes_iff hnodup']
  constructor
  · rintro ⟨v, hv, hle⟩
    exact ⟨v, h.mem_iff.1 hv, weight_perm h v.2 ▸ hle⟩
  · rintro ⟨v, hv, hle⟩
    exact ⟨v, h.mem_iff.2 hv, weight_perm h v.2 ▸ hle⟩

theorem mostVotes_perm (h : votes.Perm others) (hnodup : (votes.map Prod.fst).Nodup) :
    (ofVotes votes).mostVotes = (ofVotes others).mostVotes :=
  mostVotes_congr (hasMajority_perm h hnodup)

end Order

/-! ## Equal votes in place of one another -/

/-- The same payload, or an equal one. -/
def Alike (p q : P) : Prop := p = q ∨ Payload.same p q = true

/-- Vote by vote, the same senders have sent alike payloads. -/
def Matching (votes others : List (String × P)) : Prop :=
  List.Forall₂ (fun v w => v.1 = w.1 ∧ Alike v.2 w.2) votes others

section Exchange
variable [LawfulPayload P] {votes others : List (String × P)} {p q r t : P}

theorem Alike.symm (h : Alike p q) : Alike q p := h.imp Eq.symm LawfulPayload.same_symm

theorem Alike.same_of_same (hpq : Alike p q) (hrt : Alike r t) (h : Payload.same p r = true) :
    Payload.same q t = true := by
  have hqr : Payload.same q r = true := by
    rcases hpq with rfl | hpq
    · exact h
    · exact LawfulPayload.same_trans (LawfulPayload.same_symm hpq) h
  rcases hrt with rfl | hrt
  · exact hqr
  · exact LawfulPayload.same_trans hqr hrt

theorem Alike.same_iff (hpq : Alike p q) (hrt : Alike r t) :
    Payload.same p r = true ↔ Payload.same q t = true :=
  ⟨hpq.same_of_same hrt, hpq.symm.same_of_same hrt.symm⟩

namespace Matching

theorem symm (h : Matching votes others) : Matching others votes :=
  (h.imp fun _ _ hvw => (⟨hvw.1.symm, hvw.2.symm⟩ : _ ∧ Alike _ _)).flip

omit [LawfulPayload P] in
theorem map_fst_eq (h : Matching votes others) : votes.map Prod.fst = others.map Prod.fst := by
  induction h with
  | nil => rfl
  | cons hvw _ ih => rw [List.map_cons, List.map_cons, hvw.1, ih]

omit [LawfulPayload P] in
theorem exists_mem (h : Matching votes others) {v : String × P} (hv : v ∈ votes) :
    ∃ w ∈ others, Alike v.2 w.2 := by
  induction h with
  | nil => cases hv
  | @cons a b _ _ hab _ ih =>
    rcases List.mem_cons.1 hv with rfl | hv
    · exact ⟨b, List.mem_cons_self .., hab.2⟩
    · obtain ⟨w, hw, halike⟩ := ih hv
      exact ⟨w, List.mem_cons_of_mem _ hw, halike⟩

theorem weight_eq (h : Matching votes others) (hpq : Alike p q) :
    weight votes p = weight others q := by
  have hcount : (votes.countP fun v => Payload.same p v.2) =
      others.countP fun v => Payload.same q v.2 := by
    induction h with
    | nil => rfl
    | cons hvw _ ih =>
      rw [List.countP_cons, List.countP_cons, ih]
      simp only [hpq.same_iff hvw.2]
  rw [weight, weight, hcount]

theorem hasMajority (h : Matching votes others) (hnodup : (votes.map Prod.fst).Nodup)
    {threshold : Nat} (hmajority : (ofVotes votes).hasMajority threshold = true) :
    (ofVotes others).hasMajority threshold = true := by
  obtain ⟨v, hv, hle⟩ := (hasMajority_ofVotes_iff hnodup).1 hmajority
  obtain ⟨w, hw, halike⟩ := h.exists_mem hv
  rw [h.weight_eq halike] at hle
  exact (hasMajority_ofVotes_iff (h.map_fst_eq ▸ hnodup)).2 ⟨w, hw, hle⟩

theorem hasMajority_eq (h : Matching votes others) (hnodup : (votes.map Prod.fst).Nodup)
    (threshold : Nat) :
    (ofVotes votes).hasMajority threshold = (ofVotes others).hasMajority threshold := by
  rw [Bool.eq_iff_iff]
  exact ⟨h.hasMajority hnodup, h.symm.hasMajority (h.map_fst_eq ▸ hnodup)⟩

end Matching

end Exchange

end QuorumRounds.Tally
