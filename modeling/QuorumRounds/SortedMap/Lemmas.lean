import QuorumRounds.SortedMap.Basic

/-! # What the operations on maps do to look-ups

A map is determined by its look-ups (`SortedMap.ext_get?`), and each operation is described by what
it does to them (`get?_insert`, `get?_filterMap`, `get?_mapValues`, `get?_filterKeys`). Entries and
look-ups say the same (`mem_entries_iff`). So operations that look-ups do not tell apart come to the
same map (`insert_comm`, `mapValues_insert`). -/

namespace QuorumRounds
set_option autoImplicit false

universe u v w

section Entries
variable {κ : Type u} {α : Type v} [Ord κ] [Std.LawfulEqOrd κ]

theorem compare_ne_lt_self (key : κ) : compare key key ≠ .lt := by
  rw [Std.compare_self]
  decide

theorem lookupEntry_cons [DecidableEq κ] (key k : κ) (value : α) (rest : List (κ × α)) :
    lookupEntry key ((k, value) :: rest) =
      if key = k then some value else lookupEntry key rest := by
  rw [lookupEntry]
  split
  case h_1 h => rw [if_pos (Std.LawfulEqCmp.eq_of_compare h)]
  case h_2 h =>
    rw [if_neg]
    rintro rfl
    exact h (Std.compare_self)

theorem mem_of_lookupEntry {key : κ} {value : α} {entries : List (κ × α)}
    (h : lookupEntry key entries = some value) : (key, value) ∈ entries := by
  induction entries with
  | nil => simp [lookupEntry] at h
  | cons head rest ih =>
    obtain ⟨k, v⟩ := head
    rw [lookupEntry] at h
    split at h
    case h_1 heq =>
      obtain rfl := Std.LawfulEqCmp.eq_of_compare heq
      obtain rfl := Option.some.inj h
      exact List.mem_cons_self ..
    case h_2 => exact List.mem_cons_of_mem _ (ih h)

theorem lookupEntry_insertEntry [DecidableEq κ] (key k : κ) (value : α) (entries : List (κ × α)) :
    lookupEntry k (insertEntry key value entries) =
      if k = key then some value else lookupEntry k entries := by
  induction entries with
  | nil => rw [insertEntry, lookupEntry_cons]
  | cons head rest ih =>
    obtain ⟨k', v⟩ := head
    rw [insertEntry]
    split
    case h_1 hlt => rw [lookupEntry_cons]
    case h_2 heq =>
      obtain rfl := Std.LawfulEqCmp.eq_of_compare heq
      rw [lookupEntry_cons, lookupEntry_cons]
      split <;> rfl
    case h_3 hgt =>
      have hne : key ≠ k' := by
        rintro rfl
        rw [Std.compare_self] at hgt
        exact absurd hgt (by decide)
      rw [lookupEntry_cons, lookupEntry_cons, ih]
      by_cases hk : k = k'
      · subst hk
        rw [if_pos rfl, if_pos rfl, if_neg (Ne.symm hne)]
      · rw [if_neg hk, if_neg hk]

theorem ne_of_keysIncrease_cons {k : κ} {v : α} {rest : List (κ × α)}
    (h : KeysIncrease ((k, v) :: rest)) {e : κ × α} (he : e ∈ rest) : e.1 ≠ k := by
  rintro rfl
  exact compare_ne_lt_self _ ((List.pairwise_cons.1 h).1 e he)

theorem lookupEntry_of_mem {key : κ} {value : α} {entries : List (κ × α)}
    (hs : KeysIncrease entries) (h : (key, value) ∈ entries) :
    lookupEntry key entries = some value := by
  induction entries with
  | nil => cases h
  | cons head rest ih =>
    obtain ⟨k, v⟩ := head
    rw [lookupEntry]
    rcases List.mem_cons.1 h with heq | hmem
    · obtain ⟨rfl, rfl⟩ := Prod.mk.inj heq
      rw [Std.compare_self]
    · split
      case h_1 heq =>
        exact absurd (Std.LawfulEqCmp.eq_of_compare heq) (ne_of_keysIncrease_cons hs hmem)
      case h_2 => exact ih (List.pairwise_cons.1 hs).2 hmem

theorem lookupEntry_eq_some_iff {key : κ} {value : α} {entries : List (κ × α)}
    (hs : KeysIncrease entries) :
    lookupEntry key entries = some value ↔ (key, value) ∈ entries :=
  ⟨mem_of_lookupEntry, lookupEntry_of_mem hs⟩

variable [Std.TransOrd κ]

/-- Two lists of entries in key order with the same members are the same list. -/
theorem entries_ext {a b : List (κ × α)} (ha : KeysIncrease a) (hb : KeysIncrease b)
    (h : ∀ e, e ∈ a ↔ e ∈ b) : a = b := by
  induction a generalizing b with
  | nil =>
    cases b with
    | nil => rfl
    | cons e _ => exact absurd ((h e).2 (List.mem_cons_self ..)) (List.not_mem_nil)
  | cons x a ih =>
    cases b with
    | nil => exact absurd ((h x).1 (List.mem_cons_self ..)) (List.not_mem_nil)
    | cons y b =>
      obtain ⟨hx, ha'⟩ := List.pairwise_cons.1 ha
      obtain ⟨hy, hb'⟩ := List.pairwise_cons.1 hb
      have hxy : x = y := by
        rcases List.mem_cons.1 ((h x).1 (List.mem_cons_self ..)) with hxy | hxb
        · exact hxy
        · rcases List.mem_cons.1 ((h y).2 (List.mem_cons_self ..)) with hyx | hya
          · exact hyx.symm
          · exact absurd (Std.TransCmp.lt_trans (hx y hya) (hy x hxb)) (compare_ne_lt_self _)
      subst hxy
      have hrest : ∀ e, e ∈ a ↔ e ∈ b := fun e => by
        have he := h e
        rw [List.mem_cons, List.mem_cons] at he
        constructor
        · intro hea
          rcases he.1 (.inr hea) with rfl | heb
          · exact absurd (hx e hea) (compare_ne_lt_self _)
          · exact heb
        · intro heb
          rcases he.2 (.inr heb) with rfl | hea
          · exact absurd (hy e heb) (compare_ne_lt_self _)
          · exact hea
      rw [ih ha' hb' hrest]

end Entries

namespace SortedMap
variable {κ : Type u} {α : Type v} {β : Type w} [Ord κ]

@[simp] theorem get?_empty (key : κ) : (∅ : SortedMap κ α).get? key = none := rfl

variable [Std.LawfulEqOrd κ]

theorem mem_entries_iff {m : SortedMap κ α} {key : κ} {value : α} :
    (key, value) ∈ m.entries ↔ m.get? key = some value :=
  (lookupEntry_eq_some_iff m.keysIncrease).symm

theorem get?_insert [Std.TransOrd κ] [DecidableEq κ] (m : SortedMap κ α) (key k : κ) (value : α) :
    (m.insert key value).get? k = if k = key then some value else m.get? k :=
  lookupEntry_insertEntry key k value m.entries

theorem get?_filterMap (f : κ → α → Option β) (m : SortedMap κ α) (key : κ) :
    (m.filterMap f).get? key = (m.get? key).bind (f key) := by
  ext value
  rw [← mem_entries_iff, Option.bind_eq_some_iff]
  simp only [filterMap, List.mem_filterMap, Option.map_eq_some_iff, Prod.mk.injEq, Prod.exists]
  constructor
  · rintro ⟨k, x, hmem, y, hf, rfl, rfl⟩
    exact ⟨x, mem_entries_iff.1 hmem, hf⟩
  · rintro ⟨x, hget, hf⟩
    exact ⟨key, x, mem_entries_iff.2 hget, value, hf, rfl, rfl⟩

theorem get?_mapValues (f : α → β) (m : SortedMap κ α) (key : κ) :
    (m.mapValues f).get? key = (m.get? key).map f := by
  ext value
  rw [← mem_entries_iff, Option.map_eq_some_iff]
  simp only [mapValues, List.mem_map, Prod.mk.injEq, Prod.exists]
  constructor
  · rintro ⟨k, x, hmem, rfl, rfl⟩
    exact ⟨x, mem_entries_iff.1 hmem, rfl⟩
  · rintro ⟨x, hget, rfl⟩
    exact ⟨key, x, mem_entries_iff.2 hget, rfl, rfl⟩

theorem get?_filterKeys (p : κ → Bool) (m : SortedMap κ α) (key : κ) :
    (m.filterKeys p).get? key = if p key then m.get? key else none := by
  ext value
  rw [← mem_entries_iff]
  simp only [filterKeys, List.mem_filter]
  rw [mem_entries_iff]
  split
  case isTrue hp => simp [hp]
  case isFalse hp => simp [hp]

theorem contains_iff_mem_keys {m : SortedMap κ α} {key : κ} :
    m.contains key = true ↔ key ∈ m.keys := by
  rw [contains, Option.isSome_iff_exists, keys, List.mem_map]
  constructor
  · rintro ⟨value, hget⟩
    exact ⟨(key, value), mem_entries_iff.2 hget, rfl⟩
  · rintro ⟨⟨k, value⟩, hmem, rfl⟩
    exact ⟨value, mem_entries_iff.1 hmem⟩

theorem contains_insert [Std.TransOrd κ] (m : SortedMap κ α) (key k : κ) (value : α) :
    (m.insert key value).contains k = true ↔ k = key ∨ m.contains k = true := by
  classical
  rw [contains, get?_insert, contains]
  split <;> simp_all

theorem contains_insert_of_ne [Std.TransOrd κ] (m : SortedMap κ α) {key k : κ} (h : k ≠ key)
    (value : α) : (m.insert key value).contains k = m.contains k := by
  classical
  rw [contains, get?_insert, if_neg h, contains]

theorem ext_get? [Std.TransOrd κ] {a b : SortedMap κ α} (h : ∀ key, a.get? key = b.get? key) :
    a = b := by
  have he : a.entries = b.entries :=
    entries_ext a.keysIncrease b.keysIncrease fun e => by
      rw [mem_entries_iff, mem_entries_iff, h]
  cases a; cases b; simp_all

/-! ## One operation after another -/

theorem insert_comm [Std.TransOrd κ] [DecidableEq κ] (m : SortedMap κ α) {j k : κ} (h : j ≠ k)
    (x y : α) : (m.insert j x).insert k y = (m.insert k y).insert j x := by
  apply ext_get?
  intro key
  simp only [get?_insert]
  by_cases hj : key = j
  · rw [if_pos hj, if_pos hj, if_neg (hj ▸ h)]
  · rw [if_neg hj, if_neg hj]

theorem mapValues_insert [Std.TransOrd κ] (f : α → β) (m : SortedMap κ α) (key : κ) (value : α) :
    (m.insert key value).mapValues f = (m.mapValues f).insert key (f value) := by
  classical
  apply ext_get?
  intro k
  simp only [get?_mapValues, get?_insert]
  split <;> rfl

theorem mapValues_filterKeys [Std.TransOrd κ] (f : α → β) (m : SortedMap κ α) (p : κ → Bool) :
    (m.filterKeys p).mapValues f = (m.mapValues f).filterKeys p := by
  apply ext_get?
  intro k
  simp only [get?_mapValues, get?_filterKeys]
  split <;> rfl

end SortedMap

end QuorumRounds
