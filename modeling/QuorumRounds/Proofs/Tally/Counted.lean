import Mathlib.Algebra.Ring.Nat
import QuorumRounds.Proofs.Tally.Groups

/-! # Tallies of any votes

A sender may vote again and again, but only its first vote counts. So the tally of any votes is that
of the counted ones (`ofVotes_counted`), which are of distinct senders, and those are grouped by
equality (`groups_counted`).

The candidates are the counted payloads without those that equal an earlier one
(`candidates_ofVotes`), so that they stand in the order in which they were first seen. -/

namespace QuorumRounds.Tally
set_option autoImplicit false

variable {P κ : Type}

/-! ## Lists without repetitions -/

section Repetitions
variable {α : Type} (alike : α → α → Bool)

theorem eraseDupsBy_loop_concat (items kept : List α) (last : α) :
    List.eraseDupsBy.loop alike (items ++ [last]) kept =
      if (List.eraseDupsBy.loop alike items kept).any (alike last) then
        List.eraseDupsBy.loop alike items kept
      else List.eraseDupsBy.loop alike items kept ++ [last] := by
  -- The loop keeps what has stayed in reverse, and turns it round when the items are used up.
  induction items generalizing kept with
  | nil =>
    rw [List.nil_append, List.eraseDupsBy.loop, List.eraseDupsBy.loop, List.any_reverse]
    cases kept.any (alike last) with
    | true => rfl
    | false => simp [List.eraseDupsBy.loop]
  | cons item rest ih =>
    rw [List.cons_append, List.eraseDupsBy.loop, List.eraseDupsBy.loop]
    cases kept.any (alike item) with
    | true => exact ih kept
    | false => exact ih (item :: kept)

/-- The last item stays unless it is like one that has stayed. -/
theorem eraseDupsBy_concat (items : List α) (last : α) :
    (items ++ [last]).eraseDupsBy alike =
      if (items.eraseDupsBy alike).any (alike last) then items.eraseDupsBy alike
      else items.eraseDupsBy alike ++ [last] := eraseDupsBy_loop_concat alike items [] last

end Repetitions

/-! ## The votes that count -/

/-- The first vote of each sender, in order. -/
def counted (votes : List (String × P)) : List (String × P) :=
  votes.eraseDupsBy fun later earlier => later.1 == earlier.1

section Counted
variable {votes : List (String × P)} {v : String × P}

theorem mem_senders_counted {s : String} :
    s ∈ (counted votes).map Prod.fst ↔ s ∈ votes.map Prod.fst := by
  induction votes using List.reverseRecOn with
  | nil => rfl
  | append_singleton votes v ih =>
    rw [counted, eraseDupsBy_concat, ← counted, List.map_append, List.mem_append, ← ih]
    by_cases hany : ((counted votes).any fun earlier => v.1 == earlier.1) = true
    · obtain ⟨earlier, hearlier, hsender⟩ := List.any_eq_true.1 hany
      rw [if_pos hany]
      refine ⟨.inl, fun h => h.elim id fun hs => ?_⟩
      rw [List.map_singleton, List.mem_singleton] at hs
      rw [hs, beq_iff_eq.1 hsender]
      exact List.mem_map_of_mem hearlier
    · rw [if_neg hany, List.map_append, List.mem_append]

theorem any_counted_iff {s : String} :
    ((counted votes).any fun earlier => s == earlier.1) = true ↔ s ∈ votes.map Prod.fst := by
  rw [← mem_senders_counted, List.any_eq_true, List.mem_map]
  simp only [beq_iff_eq, @eq_comm _ s]

theorem counted_concat_of_mem (h : v.1 ∈ votes.map Prod.fst) :
    counted (votes ++ [v]) = counted votes := by
  rw [counted, eraseDupsBy_concat, ← counted, if_pos (any_counted_iff.2 h)]

theorem counted_concat_of_not_mem (h : v.1 ∉ votes.map Prod.fst) :
    counted (votes ++ [v]) = counted votes ++ [v] := by
  rw [counted, eraseDupsBy_concat, ← counted, if_neg (mt any_counted_iff.1 h)]

theorem nodup_counted (votes : List (String × P)) : ((counted votes).map Prod.fst).Nodup := by
  induction votes using List.reverseRecOn with
  | nil => exact List.nodup_nil
  | append_singleton votes v ih =>
    by_cases hmem : v.1 ∈ votes.map Prod.fst
    · rw [counted_concat_of_mem hmem]
      exact ih
    · rw [counted_concat_of_not_mem hmem, List.map_append, List.nodup_append]
      refine ⟨ih, List.nodup_singleton _, ?_⟩
      rintro s hs _ hv rfl
      rw [List.map_singleton, List.mem_singleton] at hv
      exact hmem (hv ▸ mem_senders_counted.1 hs)

/-- A vote counts if it is the first one of its sender. -/
theorem mem_counted_iff {s : String} {p : P} :
    (s, p) ∈ counted votes ↔ votes.lookup s = some p := by
  induction votes using List.reverseRecOn with
  | nil => simp [counted]
  | append_singleton votes v ih =>
    obtain ⟨u, q⟩ := v
    rw [List.lookup_append]
    by_cases hmem : u ∈ votes.map Prod.fst
    · rw [counted_concat_of_mem hmem, ih]
      cases hlookup : votes.lookup s with
      | some first => rfl
      | none =>
        have hne : s ≠ u := by
          rintro rfl
          obtain ⟨w, hw, hsender⟩ := List.mem_map.1 hmem
          simpa [hsender] using List.lookup_eq_none_iff.1 hlookup w hw
        simp [List.lookup_cons, beq_false_of_ne hne]
    · rw [counted_concat_of_not_mem hmem, List.mem_append, ih, List.mem_singleton, Prod.mk.injEq]
      by_cases hsender : s = u
      · subst hsender
        have hlookup : votes.lookup s = none := by
          rw [List.lookup_eq_none_iff]
          intro w hw
          rw [bne_iff_ne]
          rintro rfl
          exact hmem (List.mem_map_of_mem hw)
        simp [hlookup, eq_comm]
      · simp [List.lookup_cons, beq_false_of_ne hsender, hsender]

end Counted

/-! ## The tally of the votes that count -/

section Grouped
variable [Payload P κ]

theorem ofVotes_counted (votes : List (String × P)) : ofVotes (counted votes) = ofVotes votes := by
  induction votes using List.reverseRecOn with
  | nil => rfl
  | append_singleton votes v ih =>
    have hcounts := counts_ofVotes (nodup_counted votes)
    rw [ih] at hcounts
    rw [ofVotes_concat]
    by_cases hmem : v.1 ∈ votes.map Prod.fst
    · rw [counted_concat_of_mem hmem, ih,
        add_of_hasVoted (hcounts.hasVoted_iff.2 (mem_senders_counted.2 hmem))]
    · rw [counted_concat_of_not_mem hmem, ofVotes_concat, ih]

theorem hasVoted_ofVotes_iff {votes : List (String × P)} {s : String} :
    (ofVotes votes).hasVoted s = true ↔ s ∈ votes.map Prod.fst := by
  have hcounts := counts_ofVotes (nodup_counted votes)
  rw [ofVotes_counted] at hcounts
  rw [hcounts.hasVoted_iff, mem_senders_counted]

theorem map_fst_support (s : String) (p : P) (candidates : List (P × SortedSet String)) :
    (support s p candidates).map Prod.fst =
      if (candidates.map Prod.fst).any fun q => Payload.same q p then candidates.map Prod.fst
      else candidates.map Prod.fst ++ [p] := by
  rcases support_cases s p candidates with
    ⟨before, q, senders, behind, rfl, _, hsame, hsupport⟩ | ⟨hnone, hsupport⟩
  · rw [hsupport, if_pos (by simp [hsame])]
    simp
  · rw [hsupport, if_neg]
    · simp
    · rw [List.any_map, Bool.not_eq_true, List.any_eq_false]
      intro c hc
      simp [hnone c hc]

theorem candidates_ofVotes {votes : List (String × P)} (h : (votes.map Prod.fst).Nodup) :
    (ofVotes votes).candidates.map Prod.fst =
      (votes.map Prod.snd).eraseDupsBy fun later earlier => Payload.same earlier later := by
  induction votes using List.reverseRecOn with
  | nil => rfl
  | append_singleton votes v ih =>
    rw [List.map_append, List.nodup_append] at h
    have hvoted : (ofVotes votes).hasVoted v.1 = false := by
      rw [← Bool.not_eq_true, hasVoted_ofVotes_iff]
      exact fun hmem => h.2.2 v.1 hmem v.1 (by simp) rfl
    rw [ofVotes_concat, add_of_not_hasVoted hvoted, map_fst_support, ih h.1, List.map_append,
      List.map_singleton, eraseDupsBy_concat]

namespace Groups
variable {tally : Tally P} {votes : List (String × P)}

/-- Everyone who has voted is behind a candidate. -/
theorem mem_voters_iff (h : tally.Groups votes) {s : String} :
    s ∈ tally.voters.domain ↔ ∃ c ∈ tally.candidates, s ∈ c.2.domain := by
  constructor
  · intro hs
    rw [h.voters_eq, List.mem_toFinset] at hs
    obtain ⟨v, hv, rfl⟩ := List.mem_map.1 hs
    obtain ⟨c, hc, hmem, _⟩ := h.covered v hv
    exact ⟨c, hc, hmem⟩
  · rintro ⟨c, hc, hmem⟩
    exact h.senders_subset hc hmem

/-- One after the other, the senders behind the candidates are the voters. -/
theorem perm_voters (h : tally.Groups votes) :
    (tally.candidates.flatMap fun c => c.2.toList).Perm tally.voters.toList := by
  have hnodup : (tally.candidates.flatMap fun c => c.2.toList).Nodup := by
    rw [List.nodup_flatMap]
    refine ⟨fun c _ => c.2.nodup_keys, h.disjoint.imp fun {a b} hdisjoint s ha hb => ?_⟩
    exact Finset.disjoint_left.1 hdisjoint ha hb
  have hvoters : tally.voters.toList.Nodup := tally.voters.nodup_keys
  rw [List.perm_ext_iff_of_nodup hnodup hvoters]
  intro s
  rw [List.mem_flatMap]
  exact h.mem_voters_iff.symm

theorem sum_sizes (h : tally.Groups votes) :
    (tally.candidates.map fun c => c.2.size).sum = tally.voters.size := by
  have hlength := h.perm_voters.length_eq
  rw [List.length_flatMap] at hlength
  simpa [SortedSet.toList, SortedMap.keys, SortedMap.size] using hlength

/-- A vote that does not equal itself is a candidate with its sender alone. -/
theorem singleton_mem [LawfulPayload P] (h : tally.Groups votes)
    {v : String × P} (hv : v ∈ votes) (hself : Payload.same v.2 v.2 = false) :
    (v.2, SortedSet.singleton v.1) ∈ tally.candidates := by
  obtain ⟨⟨p, senders⟩, hc, hmem, heq⟩ := h.covered v hv
  rcases heq with rfl | hsame
  · have hcard : senders.domain.card = 1 := by
      rw [SortedMap.card_domain]
      exact h.alone _ hc hself
    obtain ⟨s, hs⟩ := Finset.card_eq_one.1 hcard
    have hsender : v.1 ∈ senders.domain := hmem
    rw [hs, Finset.mem_singleton] at hsender
    have hsenders : senders = SortedSet.singleton v.1 := by
      apply SortedSet.ext_domain
      rw [hs, SortedSet.domain_singleton, hsender]
    rw [hsenders] at hc
    exact hc
  · rw [same_self (LawfulPayload.same_symm hsame)] at hself
    cases hself

end Groups

variable [LawfulPayload P]

theorem groups_counted (votes : List (String × P)) : (ofVotes votes).Groups (counted votes) := by
  have hgroups := groups_ofVotes (nodup_counted votes)
  rw [ofVotes_counted] at hgroups
  exact hgroups

/-- How a tally stands to the votes that were cast, the repeated ones included. -/
structure Represents (tally : Tally P) (votes : List (String × P)) : Prop where
  voters_iff : ∀ s, s ∈ tally.voters.domain ↔ ∃ c ∈ tally.candidates, s ∈ c.2.domain
  disjoint : tally.candidates.Pairwise fun a b => Disjoint a.2.domain b.2.domain
  supported : ∀ c ∈ tally.candidates, 0 < c.2.size
  apart : tally.candidates.Pairwise fun a b =>
    Payload.same a.1 b.1 = false ∧ Payload.same b.1 a.1 = false
  sizes : (tally.candidates.map fun c => c.2.size).sum = tally.voters.size
  senders : ∀ c ∈ tally.candidates, Payload.same c.1 c.1 = true → ∀ s,
    s ∈ c.2.domain ↔ ∃ p, votes.lookup s = some p ∧ Payload.same c.1 p = true
  alone : ∀ s p, votes.lookup s = some p → Payload.same p p = false →
    (p, SortedSet.singleton s) ∈ tally.candidates
  /-- The first of several equal payloads stands for all of them. -/
  order : tally.candidates.map Prod.fst =
    ((counted votes).map Prod.snd).eraseDupsBy fun later earlier => Payload.same earlier later

theorem represents (votes : List (String × P)) : (ofVotes votes).Represents votes := by
  -- The counted votes are of distinct senders, so their groups are those of the tally.
  have h := groups_counted votes
  refine ⟨fun s => h.mem_voters_iff, h.disjoint, ?_, ?_, h.sum_sizes, ?_, ?_, ?_⟩
  · intro c hc
    rw [h.size_eq_weight (nodup_counted votes) hc, weight]
    omega
  · refine (List.pairwise_map.1 h.apart).imp fun {a b} hab => ⟨hab, ?_⟩
    rw [← Bool.not_eq_true] at hab ⊢
    exact mt LawfulPayload.same_symm hab
  · intro c hc hself s
    rw [h.mem_domain_iff hc hself]
    constructor
    · rintro ⟨⟨_, p⟩, hv, hsame, rfl⟩
      exact ⟨p, mem_counted_iff.1 hv, hsame⟩
    · rintro ⟨p, hlookup, hsame⟩
      exact ⟨(s, p), mem_counted_iff.2 hlookup, hsame, rfl⟩
  · exact fun s p hlookup hself => h.singleton_mem (mem_counted_iff.2 hlookup) hself
  · rw [← ofVotes_counted]
    exact candidates_ofVotes (nodup_counted votes)

theorem leader?_ofVotes_eq_none_iff {votes : List (String × P)} :
    (ofVotes votes).leader? = none ↔ votes = [] := by
  rw [leader?_eq_none_iff]
  constructor
  · intro hnone
    by_contra hsome
    obtain ⟨v, hv⟩ := List.exists_mem_of_ne_nil votes hsome
    have hvoted := hasVoted_ofVotes_iff.2 (List.mem_map_of_mem (f := Prod.fst) hv)
    obtain ⟨c, hc, _⟩ := ((represents votes).voters_iff v.1).1 (SortedMap.mem_domain.2 hvoted)
    rw [hnone] at hc
    cases hc
  · rintro rfl
    rfl

theorem votes_are_grouped (votes : List (String × P)) :
    (ofVotes votes).Represents votes ∧
      (∀ s p, ((ofVotes votes).vote s p).1 = true ↔ s ∉ votes.map Prod.fst) ∧
      (∀ s p, s ∈ votes.map Prod.fst → (ofVotes votes).vote s p = (false, ofVotes votes)) ∧
      ((ofVotes votes).leader? = none ↔ votes = []) ∧
      ∀ p n, (ofVotes votes).leader? = some (p, n) → Leads p n (ofVotes votes).candidates := by
  refine ⟨represents votes, ?_, ?_, leader?_ofVotes_eq_none_iff, fun _ _ => leader?_eq_some⟩
  · intro s p
    rw [vote_fst, Bool.not_eq_true', ← Bool.not_eq_true, hasVoted_ofVotes_iff]
  · intro s p hs
    exact vote_of_hasVoted (hasVoted_ofVotes_iff.2 hs)

end Grouped

section Instance

/-- Two votes for a NaN of the same bits, two for zero that differ in the sign, and a second vote of
the one who has voted for one. -/
def someVotes : List (String × PriceOracle.Payload) :=
  [("d", .estimate ⟨0x7ff8000000000000⟩), ("b", .estimate ⟨0x8000000000000000⟩),
    ("a", .estimate ⟨0x3ff0000000000000⟩), ("a", .estimate ⟨0⟩), ("c", .estimate ⟨0⟩),
    ("e", .estimate ⟨0x7ff8000000000000⟩)]

theorem votes_are_grouped_with_nans :
    (ofVotes someVotes).Represents someVotes ∧
      (ofVotes someVotes).vote "a" (.estimate ⟨0⟩) = (false, ofVotes someVotes) ∧
      ((ofVotes someVotes).vote "f" (.estimate ⟨0⟩)).1 = true ∧
      (ofVotes someVotes).leader? = some (.estimate ⟨0x8000000000000000⟩, 2) ∧
      Leads (.estimate ⟨0x8000000000000000⟩) 2 (ofVotes someVotes).candidates := by
  obtain ⟨hrepresents, hfirst, hlater, -, hleads⟩ := votes_are_grouped someVotes
  have hleader : (ofVotes someVotes).leader? = some (.estimate ⟨0x8000000000000000⟩, 2) := by
    decide +kernel
  exact ⟨hrepresents, hlater _ _ (by decide), (hfirst _ _).2 (by decide), hleader,
    hleads _ _ hleader⟩

end Instance

end QuorumRounds.Tally
