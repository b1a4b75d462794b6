import Mathlib.Data.List.Perm.Basic
import QuorumRounds.Proofs.Checked
import QuorumRounds.Proofs.Timeouts
import QuorumRounds.Timeouts.Ranked

/-! # Timeouts as an agenda

An agenda lists what is pending by deadline, and under one deadline by the number under which it was
scheduled. The calls on timeouts are answered as an agenda answers them, however they follow on one
another (`Logged`). An expiring item is the head of the agenda: it precedes all others, and only one
item does (`Item.first_unique`). -/

namespace QuorumRounds.Timeouts
set_option autoImplicit false

variable {ε σ τ : Type}

/-! ## Calls -/

/-- What the calls schedule, in their order. -/
def scheduled : List (Call ε) → List (Duration × ε)
  | [] => []
  | .schedule deadline event :: calls => (deadline, event) :: scheduled calls
  | _ :: calls => scheduled calls

theorem run_cons_eq_ok_iff {respond : σ → Call ε → Checked (Answer ε × σ)} {state last : σ}
    {call : Call ε} {calls : List (Call ε)} {answer : Answer ε} {answers : List (Answer ε)} :
    run respond state (call :: calls) = .ok (answer :: answers, last) ↔
      ∃ after, respond state call = .ok (answer, after) ∧
        run respond after calls = .ok (answers, last) := by
  rw [run]
  constructor
  · intro h
    obtain ⟨⟨first, after⟩, hfirst, h⟩ := Checked.bind_eq_ok_iff.1 h
    obtain ⟨⟨others, other⟩, hothers, h⟩ := Checked.bind_eq_ok_iff.1 h
    cases h
    exact ⟨after, hfirst, hothers⟩
  · rintro ⟨after, hfirst, hothers⟩
    rw [hfirst, Checked.ok_bind]
    simp only [hothers]
    rfl

/-- Two queues that answer each call alike answer all of them alike. What relates them may depend on
the calls that are still to come. -/
theorem run_alike {respond : σ → Call ε → Checked (Answer ε × σ)}
    {respond' : τ → Call ε → Checked (Answer ε × τ)} {R : List (Call ε) → σ → τ → Prop}
    (hstep : ∀ call calls s t, R (call :: calls) s t → ∃ answer s' t',
      respond s call = .ok (answer, s') ∧ respond' t call = .ok (answer, t') ∧ R calls s' t')
    {calls : List (Call ε)} {s : σ} {t : τ} (h : R calls s t) :
    ∃ answers s' t', run respond s calls = .ok (answers, s') ∧
      run respond' t calls = .ok (answers, t') ∧ R [] s' t' := by
  induction calls generalizing s t with
  | nil => exact ⟨[], s, t, rfl, rfl, h⟩
  | cons call calls ih =>
    obtain ⟨answer, s₁, t₁, hs, ht, hnext⟩ := hstep call calls s t h
    obtain ⟨answers, s', t', hs', ht', hlast⟩ := ih hnext
    exact ⟨answer :: answers, s', t', run_cons_eq_ok_iff.2 ⟨s₁, hs, hs'⟩,
      run_cons_eq_ok_iff.2 ⟨t₁, ht, ht'⟩, hlast⟩

/-! ## Items -/

namespace Item

def Precedes (a b : Item Nat ε) : Prop :=
  a.deadline < b.deadline ∨ a.deadline = b.deadline ∧ a.number < b.number

theorem Precedes.trans {a b c : Item Nat ε} (hab : a.Precedes b) (hbc : b.Precedes c) :
    a.Precedes c := by
  rcases hab with hab | ⟨hab, hab'⟩
  · rcases hbc with hbc | ⟨hbc, -⟩
    · exact .inl (Nat.lt_trans hab hbc)
    · exact .inl (hbc ▸ hab)
  · rcases hbc with hbc | ⟨hbc, hbc'⟩
    · exact .inl (hab ▸ hbc)
    · exact .inr ⟨hab.trans hbc, Nat.lt_trans hab' hbc'⟩

theorem Precedes.deadline_le {a b : Item Nat ε} (h : a.Precedes b) : a.deadline ≤ b.deadline := by
  rcases h with hlt | ⟨heq, -⟩
  · exact Nat.le_of_lt hlt
  · exact Nat.le_of_eq (congrArg Duration.nanos heq)

theorem Precedes.asymm {a b : Item Nat ε} (hab : a.Precedes b) : ¬ b.Precedes a := by
  intro hba
  rcases hab.trans hba with hlt | ⟨-, hlt⟩
  · exact Nat.lt_irrefl _ hlt
  · exact Nat.lt_irrefl _ hlt

/-- Only one item precedes all others. -/
theorem first_unique {a b : Item Nat ε} {as bs : List (Item Nat ε)} (h : (a :: as).Perm (b :: bs))
    (ha : ∀ item ∈ as, a.Precedes item) (hb : ∀ item ∈ bs, b.Precedes item) :
    a = b ∧ as.Perm bs := by
  have hab : a = b := by
    rcases List.mem_cons.1 (h.subset List.mem_cons_self) with hab | hmem
    · exact hab
    · rcases List.mem_cons.1 (h.symm.subset List.mem_cons_self) with hba | hmem'
      · exact hba.symm
      · exact absurd (ha b hmem') (hb a hmem).asymm
  subst hab
  exact ⟨rfl, h.cons_inv⟩

/-- The entries that are due at a time. -/
def due (now : Duration) (items : List (Item Nat ε)) : List (Duration × ε) :=
  (items.filter fun item => item.deadline ≤ now).map entry

theorem due_cons {now : Duration} {first : Item Nat ε} (rest : List (Item Nat ε))
    (h : first.deadline ≤ now) : due now (first :: rest) = first.entry :: due now rest := by
  rw [due, List.filter_cons_of_pos (by simpa using h)]
  rfl

theorem due_of_later {now : Duration} {items : List (Item Nat ε)}
    (h : ∀ item ∈ items, now < item.deadline) : due now items = [] := by
  rw [due, List.map_eq_nil_iff, List.filter_eq_nil_iff]
  exact fun item hitem hdue => Nat.not_le_of_lt (h item hitem) (of_decide_eq_true hdue)

theorem perm_due {now : Duration} {items : List (Item Nat ε)} {entries : List (Duration × ε)}
    (h : (items.map entry).Perm entries) :
    (due now items).Perm (entries.filter fun e => e.1 ≤ now) := by
  have hfilter := h.filter fun e => e.1 ≤ now
  rwa [List.filter_map] at hfilter

/-- Entries with their numbers, in the order in which they were scheduled. -/
def numbered (history : List (Duration × ε)) : List (Item Nat ε) :=
  history.zipIdx.map fun e => ⟨e.1.1, e.2, e.1.2⟩

theorem numbered_concat (history : List (Duration × ε)) (deadline : Duration) (event : ε) :
    numbered (history ++ [(deadline, event)]) =
      numbered history ++ [⟨deadline, history.length, event⟩] := by
  simp [numbered, List.zipIdx_append]

theorem increase_numbered (history : List (Duration × ε)) :
    (numbered history).Pairwise fun a b => a.number < b.number := by
  have hnumbers : (numbered history).map number = List.range history.length := by
    rw [numbered, List.map_map, List.range_eq_range']
    exact List.zipIdx_map_snd 0 history
  rw [← List.pairwise_map (R := (· < ·)), hnumbers]
  exact List.pairwise_lt_range

theorem getElem?_of_mem_numbered {history : List (Duration × ε)} {item : Item Nat ε}
    (h : item ∈ numbered history) : history[item.number]? = some item.entry := by
  obtain ⟨e, he, rfl⟩ := List.mem_map.1 h
  exact List.mem_zipIdx_iff_getElem?.1 he

end Item

/-! ## Agendas -/

/-- Puts the item behind all that are due at its deadline or before. -/
def insertItem (item : Item Nat ε) : List (Item Nat ε) → List (Item Nat ε)
  | [] => [item]
  | other :: rest =>
    if item.deadline < other.deadline then item :: other :: rest
    else other :: insertItem item rest

theorem perm_insertItem (item : Item Nat ε) (items : List (Item Nat ε)) :
    (insertItem item items).Perm (item :: items) := by
  induction items with
  | nil => exact .refl _
  | cons other rest ih =>
    rw [insertItem]
    split
    · exact .refl _
    · exact (ih.cons other).trans (.swap item other rest)

/-- The number of the new item is the greatest. -/
theorem ordered_insertItem {item : Item Nat ε} {items : List (Item Nat ε)}
    (h : items.Pairwise Item.Precedes) (hnumber : ∀ other ∈ items, other.number < item.number) :
    (insertItem item items).Pairwise Item.Precedes := by
  induction items with
  | nil => exact List.pairwise_singleton _ _
  | cons other rest ih =>
    obtain ⟨hother, hrest⟩ := List.pairwise_cons.1 h
    obtain ⟨hlt, hnumber⟩ := List.forall_mem_cons.1 hnumber
    rw [insertItem]
    split
    case isTrue hbefore =>
      have hitem : item.Precedes other := .inl hbefore
      exact .cons (List.forall_mem_cons.2 ⟨hitem, fun e he => hitem.trans (hother e he)⟩) h
    case isFalse hbehind =>
      refine .cons (fun e he => ?_) (ih hrest hnumber)
      rcases List.mem_cons.1 ((perm_insertItem item rest).subset he) with rfl | he
      · rcases Nat.lt_or_eq_of_le (Nat.le_of_not_lt hbehind) with hdeadline | hdeadline
        · exact .inl hdeadline
        · exact .inr ⟨Duration.ext hdeadline, hlt⟩
      · exact hother e he

structure Agenda (ε : Type) where
  items : List (Item Nat ε)
  next : Nat
  ordered : items.Pairwise Item.Precedes
  number_lt : ∀ item ∈ items, item.number < next

namespace Agenda

def empty : Agenda ε := ⟨[], 0, .nil, nofun⟩

instance : EmptyCollection (Agenda ε) := ⟨empty⟩

def schedule (agenda : Agenda ε) (deadline : Duration) (event : ε) : Agenda ε where
  items := insertItem ⟨deadline, agenda.next, event⟩ agenda.items
  next := agenda.next + 1
  ordered := ordered_insertItem agenda.ordered agenda.number_lt
  number_lt item hitem := by
    rcases List.mem_cons.1 ((perm_insertItem _ _).subset hitem) with rfl | hitem
    · exact Nat.lt_succ_self _
    · exact Nat.lt_succ_of_lt (agenda.number_lt item hitem)

def tail (agenda : Agenda ε) : Agenda ε where
  items := agenda.items.tail
  next := agenda.next
  ordered := agenda.ordered.tail
  number_lt item hitem := agenda.number_lt item (List.mem_of_mem_tail hitem)

/-- Only the head is looked at. -/
def popExpired (agenda : Agenda ε) (now : Duration) : Option (Duration × ε) × Agenda ε :=
  match agenda.items with
  | [] => (none, agenda)
  | first :: _ => if first.deadline ≤ now then (some first.entry, agenda.tail) else (none, agenda)

/-- The numbers go on. -/
def cancelAll (agenda : Agenda ε) : Agenda ε := ⟨[], agenda.next, .nil, nofun⟩

def respond (agenda : Agenda ε) : Call ε → Checked (Answer ε × Agenda ε)
  | .schedule deadline event => .ok (.done, agenda.schedule deadline event)
  | .popExpired now => .ok (.entry (agenda.popExpired now).1, (agenda.popExpired now).2)
  | .earliest => .ok (.entry (agenda.items.head?.map Item.entry), agenda)
  | .size => .ok (.count agenda.items.length, agenda)
  | .cancelAll => .ok (.done, agenda.cancelAll)

variable {agenda : Agenda ε} {now : Duration}

theorem tail_items {first : Item Nat ε} {rest : List (Item Nat ε)} (h : agenda.items = first :: rest) :
    agenda.tail.items = rest :=
  (congrArg List.tail h :)

theorem popExpired_of_due {first : Item Nat ε} {rest : List (Item Nat ε)}
    (h : agenda.items = first :: rest) (hdue : first.deadline ≤ now) :
    agenda.popExpired now = (some first.entry, agenda.tail) := by
  rw [popExpired]
  simp only [h, if_pos hdue]

theorem popExpired_of_later (h : ∀ item ∈ agenda.items, now < item.deadline) :
    agenda.popExpired now = (none, agenda) := by
  rw [popExpired]
  split
  case h_1 => rfl
  case h_2 first _ heq =>
    have hlater : ¬ first.deadline ≤ now := Nat.not_le_of_lt (h first (heq ▸ List.mem_cons_self))
    rw [if_neg hlater]

theorem next_popExpired (agenda : Agenda ε) (now : Duration) :
    (agenda.popExpired now).2.next = agenda.next := by
  rw [popExpired]
  split
  · rfl
  · split <;> rfl

theorem later_of_head {first : Item Nat ε} {rest : List (Item Nat ε)}
    (h : agenda.items = first :: rest) (hnow : now < first.deadline) :
    ∀ item ∈ agenda.items, now < item.deadline := by
  have hordered := (List.pairwise_cons.1 (h ▸ agenda.ordered)).1
  rw [h]
  exact List.forall_mem_cons.2 ⟨hnow, fun item hitem =>
    Nat.lt_of_lt_of_le hnow (hordered item hitem).deadline_le⟩

theorem run_popExpired_of_later (h : ∀ item ∈ agenda.items, now < item.deadline) :
    run respond agenda [.popExpired now] = .ok ([.entry none], agenda) := by
  have hfirst : respond agenda (.popExpired now) = .ok (.entry none, agenda) := by
    rw [respond, popExpired_of_later h]
  exact run_cons_eq_ok_iff.2 ⟨agenda, hfirst, rfl⟩

/-- What is due stands in front. -/
theorem run_popExpired (now : Duration) {items : List (Item Nat ε)} (h : agenda.items = items) :
    ∃ last, run respond agenda (List.replicate ((Item.due now items).length + 1) (.popExpired now)) =
      .ok ((Item.due now items).map (fun entry => .entry (some entry)) ++ [.entry none], last) := by
  induction items generalizing agenda with
  | nil => exact ⟨agenda, run_popExpired_of_later (h ▸ List.forall_mem_nil _)⟩
  | cons first rest ih =>
    by_cases hdue : first.deadline ≤ now
    · have hfirst : respond agenda (.popExpired now) =
          .ok (.entry (some first.entry), agenda.tail) := by
        rw [respond, popExpired_of_due h hdue]
      obtain ⟨last, hrun⟩ := ih (tail_items h)
      rw [Item.due_cons rest hdue]
      exact ⟨last, run_cons_eq_ok_iff.2 ⟨agenda.tail, hfirst, hrun⟩⟩
    · have hlater := later_of_head h (Nat.lt_of_not_le hdue)
      rw [Item.due_of_later (h ▸ hlater)]
      exact ⟨agenda, run_popExpired_of_later hlater⟩

end Agenda

/-! ## The same answers -/

/-- The timeouts and the agenda hold the same entries of the history. The timeouts list them in the
order in which they were scheduled. -/
def Logged (history : List (Duration × ε)) (timeouts : Timeouts ε) (agenda : Agenda ε) : Prop :=
  ∃ items : List (Item Nat ε), items.Sublist (Item.numbered history) ∧
    timeouts.entries = items.map Item.entry ∧ agenda.items.Perm items ∧
    agenda.next = history.length

namespace Logged
variable {history : List (Duration × ε)} {timeouts : Timeouts ε} {agenda : Agenda ε}

theorem empty : Logged [] (∅ : Timeouts ε) ∅ := ⟨[], .refl _, rfl, .refl _, rfl⟩

theorem schedule (h : Logged history timeouts agenda) (deadline : Duration) (event : ε) :
    Logged (history ++ [(deadline, event)]) (timeouts.schedule deadline event)
      (agenda.schedule deadline event) := by
  obtain ⟨items, hsub, hentries, hperm, hnext⟩ := h
  refine ⟨items ++ [⟨deadline, history.length, event⟩], ?_, ?_, ?_, ?_⟩
  · rw [Item.numbered_concat]
    exact hsub.append_right _
  · rw [Timeouts.schedule, hentries, List.map_append]
    rfl
  · rw [← hnext]
    exact (perm_insertItem _ _).trans ((hperm.cons _).trans (List.perm_append_singleton _ _).symm)
  · rw [List.length_append, ← hnext]
    rfl

theorem cancelAll (h : Logged history timeouts agenda) : Logged history ∅ agenda.cancelAll := by
  obtain ⟨_, _, _, _, hnext⟩ := h
  exact ⟨[], List.nil_sublist _, rfl, .refl _, hnext⟩

theorem perm_entries (h : Logged history timeouts agenda) :
    (agenda.items.map Item.entry).Perm timeouts.entries := by
  obtain ⟨items, _, hentries, hperm, _⟩ := h
  exact hentries ▸ hperm.map Item.entry

theorem getElem?_number (h : Logged history timeouts agenda) {item : Item Nat ε}
    (hitem : item ∈ agenda.items) : history[item.number]? = some item.entry := by
  obtain ⟨items, hsub, _, hperm, _⟩ := h
  exact Item.getElem?_of_mem_numbered (hsub.subset (hperm.subset hitem))

/-- The entry that expires next is the head of the agenda. -/
theorem head (h : Logged history timeouts agenda) {entry : Duration × ε}
    {before later : List (Duration × ε)} (hsplit : timeouts.entries = before ++ entry :: later)
    (hbefore : ∀ e ∈ before, entry.1 < e.1) (hlater : ∀ e ∈ later, entry.1 ≤ e.1) :
    ∃ first rest, agenda.items = first :: rest ∧ first.entry = entry ∧
      Logged history ⟨before ++ later⟩ agenda.tail := by
  obtain ⟨items, hsub, hentries, hperm, hnext⟩ := h
  obtain ⟨front, back, rfl, rfl, hback⟩ := List.map_eq_append_iff.1 (hentries.symm.trans hsplit)
  obtain ⟨first, after, rfl, rfl, rfl⟩ := List.map_eq_cons_iff.1 hback
  have hincrease := (Item.increase_numbered history).sublist hsub
  have hnumbers := (List.pairwise_cons.1 (List.pairwise_append.1 hincrease).2.1).1
  have hfirst : ∀ item ∈ front ++ after, first.Precedes item := by
    intro item hitem
    rcases List.mem_append.1 hitem with hitem | hitem
    · exact .inl (hbefore _ (List.mem_map_of_mem hitem))
    · rcases Nat.lt_or_eq_of_le (hlater _ (List.mem_map_of_mem hitem)) with hlt | heq
      · exact .inl hlt
      · exact .inr ⟨Duration.ext heq, hnumbers item hitem⟩
  have hpop := hperm.trans List.perm_middle
  cases hitems : agenda.items with
  | nil => exact absurd (hitems ▸ hpop).nil_eq.symm (List.cons_ne_nil _ _)
  | cons head rest =>
    have hhead := (List.pairwise_cons.1 (hitems ▸ agenda.ordered)).1
    obtain ⟨rfl, hrest⟩ := Item.first_unique (hitems ▸ hpop) hhead hfirst
    refine ⟨head, rest, rfl, rfl, front ++ after, ?_, (List.map_append ..).symm, ?_, hnext⟩
    · exact ((List.sublist_cons_self head after).append_left front).trans hsub
    · rwa [Agenda.tail_items hitems]

theorem earliest?_eq (h : Logged history timeouts agenda) :
    timeouts.earliest? = agenda.items.head?.map Item.entry := by
  cases hearliest : timeouts.earliest? with
  | none =>
    have hperm := h.perm_entries
    rw [earliestOf_eq_none hearliest] at hperm
    rw [List.map_eq_nil_iff.1 hperm.eq_nil]
    rfl
  | some entry =>
    obtain ⟨before, later, hsplit, hbefore, hlater⟩ := earliestOf_eq_some hearliest
    obtain ⟨first, rest, hitems, rfl, -⟩ := h.head hsplit hbefore hlater
    rw [hitems]
    rfl

theorem popExpired (h : Logged history timeouts agenda) (now : Duration) :
    (timeouts.popExpired now).1 = (agenda.popExpired now).1 ∧
      Logged history (timeouts.popExpired now).2 (agenda.popExpired now).2 := by
  cases hpop : timeouts.popExpired now with
  | mk expired rest =>
    rcases popExpired_cases hpop with ⟨rfl, rfl, hlater⟩ | ⟨entry, before, later, rfl, hdue, hsplit,
      hrest, hbefore, hlater⟩
    · have hitems : ∀ item ∈ agenda.items, now < item.deadline := fun item hitem =>
        hlater _ (h.perm_entries.subset (List.mem_map_of_mem hitem))
      rw [Agenda.popExpired_of_later hitems]
      exact ⟨rfl, h⟩
    · obtain ⟨first, items, hitems, rfl, hlogged⟩ := h.head hsplit hbefore hlater
      obtain rfl : rest = ⟨before ++ later⟩ := congrArg Timeouts.mk hrest
      rw [Agenda.popExpired_of_due hitems hdue]
      exact ⟨rfl, hlogged⟩

theorem size_eq (h : Logged history timeouts agenda) : timeouts.size = agenda.items.length := by
  rw [size, ← h.perm_entries.length_eq, List.length_map]

end Logged

/-- One call, whatever calls are still to come. -/
theorem respond_alike {all : List (Duration × ε)} {call : Call ε} {calls : List (Call ε)}
    {timeouts : Timeouts ε} {agenda : Agenda ε}
    (h : ∃ history, Logged history timeouts agenda ∧ history ++ scheduled (call :: calls) = all) :
    ∃ answer timeouts' agenda', respond timeouts call = .ok (answer, timeouts') ∧
      agenda.respond call = .ok (answer, agenda') ∧
      ∃ history, Logged history timeouts' agenda' ∧ history ++ scheduled calls = all := by
  obtain ⟨history, hlogged, hall⟩ := h
  cases call with
  | schedule deadline event =>
    refine ⟨_, _, _, rfl, rfl, _, hlogged.schedule deadline event, ?_⟩
    rw [← hall, List.append_assoc]
    rfl
  | popExpired now =>
    obtain ⟨hanswer, hrest⟩ := hlogged.popExpired now
    exact ⟨_, _, _, rfl, by rw [Agenda.respond, hanswer], history, hrest, hall⟩
  | earliest =>
    exact ⟨_, _, _, rfl, by rw [Agenda.respond, hlogged.earliest?_eq], history, hlogged, hall⟩
  | size => exact ⟨_, _, _, rfl, by rw [Agenda.respond, hlogged.size_eq], history, hlogged, hall⟩
  | cancelAll => exact ⟨_, _, _, rfl, rfl, history, hlogged.cancelAll, hall⟩

/-- Any calls, one after the other. -/
theorem runs_alike {history : List (Duration × ε)} {timeouts : Timeouts ε} {agenda : Agenda ε}
    (h : Logged history timeouts agenda) (calls : List (Call ε)) :
    ∃ answers timeouts' agenda', run respond timeouts calls = .ok (answers, timeouts') ∧
      run Agenda.respond agenda calls = .ok (answers, agenda') ∧
      Logged (history ++ scheduled calls) timeouts' agenda' := by
  obtain ⟨answers, timeouts', agenda', htimeouts, hagenda, history', hlogged, hall⟩ :=
    run_alike (R := fun calls' timeouts agenda => ∃ history', Logged history' timeouts agenda ∧
      history' ++ scheduled calls' = history ++ scheduled calls)
      (fun _ _ _ _ => respond_alike) ⟨history, h, rfl⟩
  obtain rfl : history' = history ++ scheduled calls := (List.append_nil history').symm.trans hall
  exact ⟨answers, timeouts', agenda', htimeouts, hagenda, hlogged⟩

/-! ## Until nothing is due -/

theorem popExpired_unchanged {timeouts : Timeouts ε} {now : Duration}
    (h : (timeouts.popExpired now).1 = none) : (timeouts.popExpired now).2 = timeouts := by
  cases hpop : timeouts.popExpired now with
  | mk expired rest =>
    rcases popExpired_cases hpop with ⟨-, rfl, -⟩ | ⟨entry, _, _, rfl, _⟩
    · rfl
    · rw [hpop] at h
      cases h

theorem respond_popExpired {now : Duration} {expired : Option (Duration × ε)}
    {timeouts rest : Timeouts ε}
    (h : respond timeouts (.popExpired now) = .ok (.entry expired, rest)) :
    timeouts.popExpired now = (expired, rest) := by
  rw [respond] at h
  cases h
  rfl

/-- Whatever has expired was due, and in the end nothing is. -/
theorem entries_of_run_popExpired {now : Duration} {found : List (Duration × ε)}
    {timeouts last : Timeouts ε}
    (h : run respond timeouts (List.replicate (found.length + 1) (.popExpired now)) =
      .ok (found.map (fun entry => .entry (some entry)) ++ [.entry none], last)) :
    last.entries = timeouts.entries.filter fun e => now < e.1 := by
  induction found generalizing timeouts with
  | nil =>
    obtain ⟨after, hpop, hlast⟩ := run_cons_eq_ok_iff.1 h
    cases hlast
    rcases popExpired_cases (respond_popExpired hpop) with ⟨-, rfl, hlater⟩ | ⟨entry, _, _, hsome, _⟩
    · exact (List.filter_eq_self.2 fun e he => decide_eq_true (hlater e he)).symm
    · cases hsome
  | cons entry found ih =>
    obtain ⟨after, hpop, hrun⟩ := run_cons_eq_ok_iff.1 h
    rcases popExpired_cases (respond_popExpired hpop) with ⟨hnone, _⟩ | ⟨first, before, later, _, hdue,
      hsplit, hrest, -, -⟩
    · cases hnone
    · have hskip : (first :: later).filter (fun e => now < e.1) = later.filter fun e => now < e.1 :=
        List.filter_cons_of_neg fun hlt => Nat.not_lt_of_le hdue (of_decide_eq_true hlt)
      rw [ih hrun, hrest, hsplit, List.filter_append, List.filter_append, hskip]

end QuorumRounds.Timeouts
