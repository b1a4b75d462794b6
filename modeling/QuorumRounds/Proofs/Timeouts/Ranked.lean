import QuorumRounds.Proofs.Timeouts.Agenda

/-! # A heap answers as an agenda does

The numbers of the items differ, so the order of the events decides nothing, and there need not even
be one (`Item.rank_of_precedes`). What remains is the order of an agenda, whatever the layout of the
heap (`Ranked.Holds`). -/

namespace QuorumRounds.Timeouts
set_option autoImplicit false

variable {ε : Type}

namespace Item

def plain (item : Item UInt64 ε) : Item Nat ε := ⟨item.deadline, item.number.toNat, item.event⟩

variable [Ord ε]

theorem rank_of_precedes {a b : Item UInt64 ε} (h : a.plain.Precedes b.plain) : rank a b = .lt := by
  rcases h with hlt | ⟨heq, hlt⟩
  · have hdeadline : compare a.deadline.nanos b.deadline.nanos = .lt := Nat.compare_eq_lt.2 hlt
    rw [rank, hdeadline, Ordering.lt_then]
  · have hdeadline : a.deadline = b.deadline := heq
    have hnumber : compare a.number.toNat b.number.toNat = .lt := Nat.compare_eq_lt.2 hlt
    rw [rank, hdeadline, Std.compare_self, Ordering.eq_then, hnumber, Ordering.lt_then]

theorem rank_of_follows {a b : Item UInt64 ε} (h : b.plain.Precedes a.plain) : rank a b = .gt := by
  rcases h with hlt | ⟨heq, hlt⟩
  · have hdeadline : compare a.deadline.nanos b.deadline.nanos = .gt := Nat.compare_eq_gt.2 hlt
    rw [rank, hdeadline, Ordering.gt_then]
  · have hdeadline : b.deadline = a.deadline := heq
    have hnumber : compare a.number.toNat b.number.toNat = .gt := Nat.compare_eq_gt.2 hlt
    rw [rank, hdeadline, Std.compare_self, Ordering.eq_then, hnumber, Ordering.gt_then]

end Item

/-! ## The least item -/

section Least
variable [Ord ε]

theorem takeLeast_eq_none {items : List (Item UInt64 ε)} (h : takeLeast items = none) :
    items = [] := by
  cases items with
  | nil => rfl
  | cons item rest =>
    rw [takeLeast] at h
    split at h
    · cases h
    · split at h <;> cases h

/-- Of two items one precedes the other. -/
def Apart (a b : Item UInt64 ε) : Prop := a.plain.Precedes b.plain ∨ b.plain.Precedes a.plain

theorem takeLeast_eq_some {items others : List (Item UInt64 ε)} {least : Item UInt64 ε}
    (hapart : items.Pairwise Apart) (h : takeLeast items = some (least, others)) :
    items.Perm (least :: others) ∧ ∀ other ∈ others, least.plain.Precedes other.plain := by
  induction items generalizing least others with
  | nil => cases h
  | cons item rest ih =>
    obtain ⟨hitem, hrest⟩ := List.pairwise_cons.1 hapart
    rw [takeLeast] at h
    cases htake : takeLeast rest with
    | none =>
      rw [htake] at h
      cases h
      rw [takeLeast_eq_none htake]
      exact ⟨.refl _, nofun⟩
    | some found =>
      obtain ⟨first, behind⟩ := found
      simp only [htake] at h
      obtain ⟨hperm, hfirst⟩ := ih hrest htake
      rcases hitem first (hperm.symm.subset List.mem_cons_self) with hbefore | hafter
      · rw [Item.rank_of_follows hbefore, if_neg (by decide)] at h
        cases h
        refine ⟨hperm.cons item, List.forall_mem_cons.2 ⟨hbefore, fun other hother => ?_⟩⟩
        exact hbefore.trans (hfirst other hother)
      · rw [Item.rank_of_precedes hafter, if_pos rfl] at h
        cases h
        exact ⟨(hperm.cons item).trans (.swap least item behind),
          List.forall_mem_cons.2 ⟨hafter, hfirst⟩⟩

end Least

/-! ## Heaps -/

namespace Ranked

/-- The heap holds what the agenda holds. -/
structure Holds (agenda : Agenda ε) (ranked : Ranked ε) : Prop where
  perm : (ranked.items.map Item.plain).Perm agenda.items
  next : ranked.next.toNat = agenda.next

namespace Holds
variable {agenda : Agenda ε} {ranked : Ranked ε}

theorem empty : Holds (∅ : Agenda ε) ∅ := ⟨.refl _, rfl⟩

theorem apart (h : Holds agenda ranked) : ranked.items.Pairwise Apart := by
  have hagenda : agenda.items.Pairwise fun a b => a.Precedes b ∨ b.Precedes a :=
    agenda.ordered.imp .inl
  exact (h.perm.symm.pairwise hagenda Or.symm).of_map Item.plain fun _ _ => id

variable [Ord ε]

theorem takeLeast (h : Holds agenda ranked) :
    agenda.items = [] ∧ Timeouts.takeLeast ranked.items = none ∨
      ∃ least others, Timeouts.takeLeast ranked.items = some (least, others) ∧
        ∃ rest, agenda.items = least.plain :: rest ∧ (others.map Item.plain).Perm rest := by
  cases htake : Timeouts.takeLeast ranked.items with
  | none =>
    refine .inl ⟨?_, rfl⟩
    have hperm := h.perm
    rw [takeLeast_eq_none htake] at hperm
    exact hperm.nil_eq.symm
  | some found =>
    obtain ⟨least, others⟩ := found
    obtain ⟨hperm, hleast⟩ := takeLeast_eq_some h.apart htake
    refine .inr ⟨least, others, rfl, ?_⟩
    have hitems := (hperm.map Item.plain).symm.trans h.perm
    cases hagenda : agenda.items with
    | nil => exact absurd (hagenda ▸ hitems).eq_nil (List.cons_ne_nil _ _)
    | cons first rest =>
      have hfirst := (List.pairwise_cons.1 (hagenda ▸ agenda.ordered)).1
      obtain ⟨rfl, hothers⟩ :=
        Item.first_unique (hagenda ▸ hitems) (List.forall_mem_map.2 hleast) hfirst
      exact ⟨rest, rfl, hothers⟩

/-- The next number is a word as long as fewer than all words have been given out. -/
theorem schedule (h : Holds agenda ranked) (deadline : Duration) (event : ε)
    (hfits : agenda.next + 1 < UInt64.size) :
    ∃ after, ranked.respond (.schedule deadline event) = .ok (.done, after) ∧
      Holds (agenda.schedule deadline event) after := by
  obtain ⟨next, hnext⟩ := Word.exists_succ (a := ranked.next) (by rw [h.next]; exact hfits)
  refine ⟨⟨⟨deadline, ranked.next, event⟩ :: ranked.items, next⟩, ?_, ?_, ?_⟩
  · rw [respond, hnext]
    rfl
  · have hitem : Item.plain ⟨deadline, ranked.next, event⟩ = ⟨deadline, agenda.next, event⟩ := by
      rw [Item.plain, h.next]
    rw [List.map_cons, hitem]
    exact (h.perm.cons _).trans (perm_insertItem _ _).symm
  · rw [Word.succ_eq_ok_iff.1 hnext, h.next]
    rfl

theorem popExpired (h : Holds agenda ranked) (now : Duration) :
    ∃ after, ranked.respond (.popExpired now) = .ok (.entry (agenda.popExpired now).1, after) ∧
      Holds (agenda.popExpired now).2 after := by
  rcases h.takeLeast with ⟨hitems, htake⟩ | ⟨least, others, htake, rest, hitems, hothers⟩
  · have hpop : agenda.popExpired now = (none, agenda) :=
      Agenda.popExpired_of_later (hitems ▸ List.forall_mem_nil _)
    refine ⟨ranked, ?_, hpop ▸ h⟩
    rw [respond, hpop]
    simp only [htake]
  · by_cases hdue : least.deadline ≤ now
    · have hpop := Agenda.popExpired_of_due hitems hdue
      refine ⟨⟨others, ranked.next⟩, ?_, hpop ▸ ⟨(Agenda.tail_items hitems).symm ▸ hothers, h.next⟩⟩
      rw [respond, hpop]
      simp only [htake, if_pos hdue]
      rfl
    · have hpop := Agenda.popExpired_of_later
        (Agenda.later_of_head hitems (Nat.lt_of_not_le hdue))
      refine ⟨ranked, ?_, hpop ▸ h⟩
      rw [respond, hpop]
      simp only [htake, if_neg hdue]

theorem earliest (h : Holds agenda ranked) :
    ranked.respond .earliest = .ok (.entry (agenda.items.head?.map Item.entry), ranked) := by
  rcases h.takeLeast with ⟨hitems, htake⟩ | ⟨least, others, htake, rest, hitems, -⟩
  · rw [respond, hitems, htake]
    rfl
  · rw [respond, hitems, htake]
    rfl

theorem size (h : Holds agenda ranked) :
    ranked.respond .size = .ok (.count agenda.items.length, ranked) := by
  rw [respond, ← h.perm.length_eq, List.length_map]

/-- One call, when the entries that are still to be scheduled have numbers. -/
theorem respond {call : Call ε} {calls : List (Call ε)} (h : Holds agenda ranked ∧
      agenda.next + (scheduled (call :: calls)).length < UInt64.size) :
    ∃ answer agenda' ranked', agenda.respond call = .ok (answer, agenda') ∧
      ranked.respond call = .ok (answer, ranked') ∧
      Holds agenda' ranked' ∧ agenda'.next + (scheduled calls).length < UInt64.size := by
  obtain ⟨h, hfits⟩ := h
  cases call with
  | schedule deadline event =>
    rw [scheduled, List.length_cons] at hfits
    obtain ⟨after, hanswer, hafter⟩ := h.schedule deadline event (by omega)
    refine ⟨_, _, after, rfl, hanswer, hafter, ?_⟩
    show agenda.next + 1 + _ < _
    omega
  | popExpired now =>
    obtain ⟨after, hanswer, hafter⟩ := h.popExpired now
    exact ⟨_, _, after, rfl, hanswer, hafter, (agenda.next_popExpired now).symm ▸ hfits⟩
  | earliest => exact ⟨_, _, _, rfl, h.earliest, h, hfits⟩
  | size => exact ⟨_, _, _, rfl, h.size, h, hfits⟩
  | cancelAll => exact ⟨_, _, _, rfl, rfl, ⟨.refl _, h.next⟩, hfits⟩

end Holds

theorem runs_alike [Ord ε] {agenda : Agenda ε} {ranked : Ranked ε} (h : Holds agenda ranked)
    {calls : List (Call ε)} (hfits : agenda.next + (scheduled calls).length < UInt64.size) :
    ∃ answers agenda' ranked', run Agenda.respond agenda calls = .ok (answers, agenda') ∧
      run respond ranked calls = .ok (answers, ranked') ∧ Holds agenda' ranked' := by
  obtain ⟨answers, agenda', ranked', hagenda, hranked, hholds, -⟩ :=
    run_alike (R := fun calls agenda ranked => Holds agenda ranked ∧
      agenda.next + (scheduled calls).length < UInt64.size) (fun _ _ _ _ => Holds.respond) ⟨h, hfits⟩
  exact ⟨answers, agenda', ranked', hagenda, hranked, hholds⟩

end Ranked

/-! ## The order in which timeouts expire -/

/-- The number of an item is its place among all that has been scheduled. Only a heap needs a word
for it. -/
theorem timeouts_expire_by_deadline_then_as_scheduled {ε : Type} [Ord ε] (calls : List (Call ε)) :
    ∃ answers timeouts agenda, run respond ∅ calls = .ok (answers, timeouts) ∧
      run Agenda.respond ∅ calls = .ok (answers, agenda) ∧
      agenda.items.Pairwise Item.Precedes ∧
      (∀ item ∈ agenda.items, (scheduled calls)[item.number]? = some item.entry) ∧
      (agenda.items.map Item.entry).Perm timeouts.entries ∧
      ((scheduled calls).length < UInt64.size →
        ∃ ranked, run Ranked.respond ∅ calls = .ok (answers, ranked)) ∧
      ∀ now, ((timeouts.popExpired now).1 = none → (timeouts.popExpired now).2 = timeouts) ∧
        ∃ (found : List (Duration × ε)) (rest : Timeouts ε), found = Item.due now agenda.items ∧
          run respond timeouts (List.replicate (found.length + 1) (.popExpired now)) =
            .ok (found.map (fun entry => .entry (some entry)) ++ [.entry none], rest) ∧
          found.Perm (timeouts.entries.filter fun e => e.1 ≤ now) ∧
          rest.entries = timeouts.entries.filter fun e => now < e.1 := by
  obtain ⟨answers, timeouts, agenda, htimeouts, hagenda, hlogged⟩ := runs_alike Logged.empty calls
  refine ⟨answers, timeouts, agenda, htimeouts, hagenda, agenda.ordered,
    fun item => hlogged.getElem?_number, hlogged.perm_entries, fun hfits => ?_,
    fun now => ⟨popExpired_unchanged, ?_⟩⟩
  · obtain ⟨answers', agenda', ranked, hagenda', hranked, -⟩ :=
      Ranked.runs_alike Ranked.Holds.empty (by rwa [← Nat.zero_add (scheduled calls).length] at hfits)
    cases hagenda'.symm.trans hagenda
    exact ⟨ranked, hranked⟩
  · obtain ⟨last, hdrained⟩ := Agenda.run_popExpired now (rfl : agenda.items = agenda.items)
    obtain ⟨found, rest, last', hrest, hlast, -⟩ := runs_alike hlogged
      (List.replicate ((Item.due now agenda.items).length + 1) (.popExpired now))
    cases hlast.symm.trans hdrained
    exact ⟨_, rest, rfl, hrest, Item.perm_due hlogged.perm_entries, entries_of_run_popExpired hrest⟩

/-- Two entries under one deadline, twice, and a clock that goes back. -/
def repeatedCalls : List (Call Nat) :=
  [.schedule (.ofSeconds 5) 1, .schedule (.ofSeconds 3) 9, .schedule (.ofSeconds 3) 2,
    .popExpired (.ofSeconds 4), .popExpired (.ofSeconds 1), .cancelAll,
    .schedule (.ofSeconds 2) 7, .schedule (.ofSeconds 2) 7, .earliest, .size,
    .popExpired (.ofSeconds 2)]

def repeatedAnswers : List (Answer Nat) :=
  [.done, .done, .done, .entry (some (.ofSeconds 3, 9)), .entry none, .done, .done, .done,
    .entry (some (.ofSeconds 2, 7)), .count 2, .entry (some (.ofSeconds 2, 7))]

theorem timeouts_expire_by_deadline_then_as_scheduled_again :
    (scheduled repeatedCalls).length < UInt64.size ∧
      ∃ timeouts agenda ranked, run respond ∅ repeatedCalls = .ok (repeatedAnswers, timeouts) ∧
        run Agenda.respond ∅ repeatedCalls = .ok (repeatedAnswers, agenda) ∧
        run Ranked.respond ∅ repeatedCalls = .ok (repeatedAnswers, ranked) ∧
        agenda.items.Pairwise Item.Precedes ∧ timeouts.entries = [(.ofSeconds 2, 7)] ∧
        ∃ rest, run respond timeouts [.popExpired (.ofSeconds 6), .popExpired (.ofSeconds 6)] =
          .ok ([.entry (some (.ofSeconds 2, 7)), .entry none], rest) ∧ rest.entries = [] := by
  have hlength : (scheduled repeatedCalls).length < UInt64.size := by decide
  obtain ⟨answers, timeouts, agenda, htimeouts, hagenda, hordered, -, hperm, hranked, hdrain⟩ :=
    timeouts_expire_by_deadline_then_as_scheduled repeatedCalls
  obtain ⟨ranked, hranked⟩ := hranked hlength
  obtain ⟨-, found, rest, rfl, hrest, hdue, hlater⟩ := hdrain (.ofSeconds 6)
  have hanswers : run respond ∅ repeatedCalls = .ok (repeatedAnswers, ⟨[(.ofSeconds 2, 7)]⟩) := by
    decide +kernel
  cases htimeouts.symm.trans hanswers
  have hone : Item.due (.ofSeconds 6) agenda.items = [(.ofSeconds 2, 7)] := List.perm_singleton.1 hdue
  rw [hone] at hrest
  exact ⟨hlength, _, agenda, ranked, hanswers, hagenda, hranked, hordered, rfl, rest, hrest, hlater⟩

end QuorumRounds.Timeouts
