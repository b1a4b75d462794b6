import QuorumRounds.Timeouts

/-! # Which timeout expires

The pending deadlines as numbers of nanoseconds (`Timeouts.due`). Of the entries with the least
deadline the first one is taken out, and nothing is while no deadline has passed
(`Timeouts.popExpired_cases`). If the pending events increase, the one that is taken out is the least
event among them (`Timeouts.popExpired_eq_some`).

`Timeouts.Among` says which events are pending at most; expiring adds none. -/

namespace QuorumRounds
set_option autoImplicit false

namespace Timeouts
variable {ε : Type}

/-- The pending deadlines, in nanoseconds. -/
def due (timeouts : Timeouts ε) : List (Nat × ε) := timeouts.entries.map fun e => (e.1.nanos, e.2)

theorem due_schedule (timeouts : Timeouts ε) (deadline : Duration) (event : ε) :
    (timeouts.schedule deadline event).due = timeouts.due ++ [(deadline.nanos, event)] := by
  rw [due, schedule, List.map_append]
  rfl

theorem earliestOf_eq_none {entries : List (Duration × ε)} (h : earliestOf entries = none) :
    entries = [] := by
  cases entries with
  | nil => rfl
  | cons first rest =>
    rw [earliestOf] at h
    split at h
    · split at h <;> cases h
    · cases h

/-- Of several entries with the least deadline the first one. -/
theorem earliestOf_eq_some {entries : List (Duration × ε)} {entry : Duration × ε}
    (h : earliestOf entries = some entry) :
    ∃ before later, entries = before ++ entry :: later ∧ (∀ e ∈ before, entry.1 < e.1) ∧
      ∀ e ∈ later, entry.1 ≤ e.1 := by
  induction entries generalizing entry with
  | nil => cases h
  | cons first rest ih =>
    rw [earliestOf] at h
    cases hrest : earliestOf rest with
    | none =>
      rw [hrest] at h
      cases h
      obtain rfl := earliestOf_eq_none hrest
      exact ⟨[], [], rfl, by simp, by simp⟩
    | some least =>
      simp only [hrest] at h
      obtain ⟨before, later, hsplit, hbefore, hlater⟩ := ih hrest
      -- of two entries with one deadline the earlier one is kept
      by_cases hlt : least.1 < first.1
      · rw [if_pos hlt] at h
        cases h
        refine ⟨first :: before, later, by rw [hsplit]; rfl, ?_, hlater⟩
        intro e he
        rcases List.mem_cons.1 he with heq | he
        · rw [heq]
          exact hlt
        · exact hbefore e he
      · rw [if_neg hlt] at h
        cases h
        refine ⟨[], rest, rfl, by simp, ?_⟩
        have hle : first.1.nanos ≤ least.1.nanos := Nat.le_of_not_lt hlt
        intro e he
        rw [hsplit] at he
        rcases List.mem_append.1 he with he | he
        · have hfar : least.1.nanos < e.1.nanos := hbefore e he
          exact Nat.le_of_lt (Nat.lt_of_le_of_lt hle hfar)
        · rcases List.mem_cons.1 he with rfl | he
          · exact hle
          · exact Nat.le_trans hle (hlater e he)

/-- The deadline of the entry is the least one, and its event the first of those that have it. -/
def Least [Ord ε] (entry : Nat × ε) (entries : List (Nat × ε)) : Prop :=
  entry ∈ entries ∧ ∀ e ∈ entries, entry.1 < e.1 ∨ entry.1 = e.1 ∧ (compare entry.2 e.2).isLE

/-- Nothing expires while no deadline has passed. Otherwise the first entry with the least deadline is
taken out, and the others stay in their order. -/
theorem popExpired_cases {timeouts rest : Timeouts ε} {now : Duration}
    {expired : Option (Duration × ε)} (h : timeouts.popExpired now = (expired, rest)) :
    expired = none ∧ rest = timeouts ∧ (∀ e ∈ timeouts.entries, now < e.1) ∨
      ∃ entry before later, expired = some entry ∧ entry.1 ≤ now ∧
        timeouts.entries = before ++ entry :: later ∧ rest.entries = before ++ later ∧
        (∀ e ∈ before, entry.1 < e.1) ∧ ∀ e ∈ later, entry.1 ≤ e.1 := by
  rw [popExpired] at h
  cases hearliest : timeouts.earliest? with
  | none =>
    rw [hearliest] at h
    cases h
    refine .inl ⟨rfl, rfl, fun e he => ?_⟩
    rw [earliestOf_eq_none hearliest] at he
    cases he
  | some entry =>
    obtain ⟨before, later, hsplit, hbefore, hlater⟩ := earliestOf_eq_some hearliest
    simp only [hearliest] at h
    by_cases hdue : entry.1 ≤ now
    · rw [if_pos hdue] at h
      cases h
      have hskipped : ∀ e ∈ before, ¬ decide (e.1 = entry.1) = true := by
        intro e he hsame
        have hlt : entry.1.nanos < e.1.nanos := hbefore e he
        rw [of_decide_eq_true hsame] at hlt
        exact Nat.lt_irrefl _ hlt
      have herase : timeouts.entries.eraseP (fun e => decide (e.1 = entry.1)) = before ++ later := by
        rw [hsplit, List.eraseP_append_right _ hskipped, List.eraseP_cons_of_pos (by simp)]
      exact .inr ⟨entry, before, later, rfl, hdue, hsplit, herase, hbefore, hlater⟩
    · rw [if_neg hdue] at h
      cases h
      have hfirst : now.nanos < entry.1.nanos := Nat.lt_of_not_le hdue
      refine .inl ⟨rfl, rfl, fun e he => ?_⟩
      rw [hsplit] at he
      rcases List.mem_append.1 he with he | he
      · exact Nat.lt_trans hfirst (hbefore e he)
      · rcases List.mem_cons.1 he with rfl | he
        · exact hfirst
        · exact Nat.lt_of_lt_of_le hfirst (hlater e he)

theorem popExpired_eq_none {timeouts rest : Timeouts ε} {now : Duration}
    (h : timeouts.popExpired now = (none, rest)) : ∀ e ∈ timeouts.due, now.nanos < e.1 := by
  rcases popExpired_cases h with ⟨_, _, hlater⟩ | ⟨_, _, _, hsome, _⟩
  · intro e he
    obtain ⟨entry, hentry, rfl⟩ := List.mem_map.1 he
    exact hlater entry hentry
  · cases hsome

/-- The entry that expires is taken out, and the others stay in their order. -/
theorem popExpired_eq_split {timeouts rest : Timeouts ε} {now deadline : Duration} {event : ε}
    (h : timeouts.popExpired now = (some (deadline, event), rest)) :
    deadline ≤ now ∧ ∃ before later, timeouts.due = before ++ (deadline.nanos, event) :: later ∧
      rest.due = before ++ later ∧ (∀ e ∈ before, deadline.nanos < e.1) ∧
      ∀ e ∈ later, deadline.nanos ≤ e.1 := by
  rcases popExpired_cases h with ⟨hnone, _⟩ | ⟨entry, before, later, heq, hdue, hsplit, hrest, hbefore,
    hlater⟩
  · cases hnone
  · cases heq
    refine ⟨hdue, before.map fun e => (e.1.nanos, e.2), later.map fun e => (e.1.nanos, e.2), ?_, ?_, ?_,
      ?_⟩
    · rw [due, hsplit, List.map_append, List.map_cons]
    · rw [due, hrest, List.map_append]
    · intro e he
      obtain ⟨pending, hpending, rfl⟩ := List.mem_map.1 he
      exact hbefore pending hpending
    · intro e he
      obtain ⟨pending, hpending, rfl⟩ := List.mem_map.1 he
      exact hlater pending hpending

theorem popExpired_eq_some [Ord ε] [Std.ReflOrd ε] {timeouts rest : Timeouts ε}
    {now deadline : Duration} {event : ε}
    (hincrease : timeouts.due.Pairwise fun a b => compare a.2 b.2 = .lt)
    (h : timeouts.popExpired now = (some (deadline, event), rest)) :
    deadline.nanos ≤ now.nanos ∧ Least (deadline.nanos, event) timeouts.due := by
  obtain ⟨hdue, before, later, hsplit, _, hbefore, hlater⟩ := popExpired_eq_split h
  rw [hsplit] at hincrease ⊢
  refine ⟨hdue, by simp, ?_⟩
  intro e he
  rcases List.mem_append.1 he with hmem | hmem
  · exact .inl (hbefore e hmem)
  · rcases List.mem_cons.1 hmem with rfl | hmem
    · exact .inr ⟨rfl, by rw [Std.compare_self]; rfl⟩
    · have horder := (List.pairwise_cons.1 (List.pairwise_append.1 hincrease).2.1).1 e hmem
      rcases Nat.lt_or_eq_of_le (hlater e hmem) with hlt | heq
      · exact .inl hlt
      · exact .inr ⟨heq, by rw [horder]; rfl⟩

theorem popExpired_of_later {timeouts : Timeouts ε} {now : Duration}
    (h : ∀ e ∈ timeouts.due, now.nanos < e.1) : timeouts.popExpired now = (none, timeouts) := by
  cases hpop : timeouts.popExpired now with
  | mk expired rest =>
    rcases popExpired_cases hpop with ⟨rfl, rfl, _⟩ | ⟨entry, before, later, _, hdue, hsplit, _⟩
    · rfl
    · have hmem : entry ∈ timeouts.entries := hsplit ▸ List.mem_append_right _ List.mem_cons_self
      exact absurd hdue (Nat.not_le_of_lt (h _ (List.mem_map_of_mem hmem)))

/-! ## The events that are pending -/

/-- The pending timeouts are on these events. -/
def Among (timeouts : Timeouts ε) (events : List ε) : Prop :=
  ∀ entry ∈ timeouts.entries, entry.2 ∈ events

theorem among_empty (events : List ε) : (∅ : Timeouts ε).Among events := by
  intro entry hentry
  cases hentry

theorem Among.schedule {timeouts : Timeouts ε} {events : List ε} (h : timeouts.Among events)
    (deadline : Duration) {event : ε} (hevent : event ∈ events) :
    (timeouts.schedule deadline event).Among events := by
  intro entry hentry
  rcases List.mem_append.1 hentry with hold | hnew
  · exact h entry hold
  · rw [List.mem_singleton.1 hnew]
    exact hevent

theorem Among.popExpired {timeouts rest : Timeouts ε} {events : List ε} {now : Duration}
    {expired : Option (Duration × ε)} (h : timeouts.Among events)
    (hpop : timeouts.popExpired now = (expired, rest)) :
    rest.Among events ∧ ∀ deadline event, expired = some (deadline, event) → event ∈ events := by
  rcases popExpired_cases hpop with ⟨rfl, rfl, _⟩ | ⟨entry, before, later, rfl, _, hsplit, hrest, _⟩
  · exact ⟨h, nofun⟩
  · rw [Among, hsplit] at h
    refine ⟨fun e he => h e ?_, fun deadline event heq => ?_⟩
    · rw [hrest] at he
      exact ((List.sublist_cons_self entry later).append_left before).subset he
    · cases heq
      exact h (deadline, event) (List.mem_append_right _ List.mem_cons_self)

end Timeouts

end QuorumRounds
