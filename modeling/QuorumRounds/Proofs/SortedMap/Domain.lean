import Mathlib.Data.Finset.Card
import Mathlib.Data.Finset.Insert
import QuorumRounds.SortedMap.Lemmas

/-! # The keys of a map as a finite set

Counting arguments are about sets of keys: the domain of a map has as many members as the map has
entries (`card_domain`), and an insertion adds one key to it (`domain_insert`). A map that is listed
with distinct keys holds exactly the listed entries (`get?_ofList_of_nodup`). -/

namespace QuorumRounds
set_option autoImplicit false

universe u v w

namespace SortedMap
variable {κ : Type u} {α : Type v} [Ord κ] [Std.LawfulEqOrd κ]

theorem nodup_keys (m : SortedMap κ α) : m.keys.Nodup := by
  rw [List.nodup_iff_pairwise_ne, keys, List.pairwise_map]
  refine m.keysIncrease.imp ?_
  intro a b hlt heq
  rw [heq] at hlt
  exact compare_ne_lt_self _ hlt

def domain (m : SortedMap κ α) : Finset κ := ⟨m.keys, m.nodup_keys⟩

theorem card_domain (m : SortedMap κ α) : m.domain.card = m.size := by
  simp [domain, keys, size]

theorem mem_domain {m : SortedMap κ α} {key : κ} : key ∈ m.domain ↔ m.contains key = true :=
  contains_iff_mem_keys.symm

variable [Std.TransOrd κ]

theorem domain_insert [DecidableEq κ] (m : SortedMap κ α) (key : κ) (value : α) :
    (m.insert key value).domain = Insert.insert key m.domain := by
  ext k
  rw [mem_domain, contains_insert, Finset.mem_insert, mem_domain]

/-! ## Maps listed by their entries -/

omit [Std.LawfulEqOrd κ] in
theorem ofList_concat (entries : List (κ × α)) (e : κ × α) :
    ofList (entries ++ [e]) = (ofList entries).insert e.1 e.2 := by
  rw [ofList, List.foldl_append]
  rfl

theorem domain_ofList [DecidableEq κ] (entries : List (κ × α)) :
    (ofList entries).domain = (entries.map Prod.fst).toFinset := by
  induction entries using List.reverseRecOn with
  | nil => rfl
  | append_singleton entries e ih =>
    rw [ofList_concat, domain_insert, ih, List.map_append, List.toFinset_append]
    ext k
    simp

theorem get?_ofList_of_nodup [DecidableEq κ] {entries : List (κ × α)}
    (h : (entries.map Prod.fst).Nodup) {key : κ} {value : α} :
    (ofList entries).get? key = some value ↔ (key, value) ∈ entries := by
  induction entries using List.reverseRecOn with
  | nil => simp [ofList, empty, get?, lookupEntry]
  | append_singleton entries e ih =>
    obtain ⟨k, v⟩ := e
    rw [List.map_append, List.nodup_append] at h
    have hfresh : k ∉ entries.map Prod.fst := fun hk => h.2.2 k hk k (by simp) rfl
    rw [ofList_concat, get?_insert]
    by_cases hk : key = k
    · subst hk
      have hnot : (key, value) ∉ entries := fun hm => hfresh (List.mem_map.2 ⟨_, hm, rfl⟩)
      simp [hnot, eq_comm]
    · rw [if_neg hk, ih h.1]
      simp [hk]

/-- Listing the entries of a map gives the map back. -/
theorem ofList_entries (m : SortedMap κ α) : ofList m.entries = m := by
  classical
  refine ext_get? fun key => ?_
  ext value
  rw [get?_ofList_of_nodup m.nodup_keys, mem_entries_iff]

omit [Std.LawfulEqOrd κ] [Std.TransOrd κ] in
theorem keys_mapValues {β : Type w} (f : α → β) (m : SortedMap κ α) :
    (m.mapValues f).keys = m.keys := by
  simp [keys, mapValues]

omit [Std.TransOrd κ] in
theorem domain_mapValues {β : Type w} (f : α → β) (m : SortedMap κ α) :
    (m.mapValues f).domain = m.domain := by
  ext key
  rw [mem_domain, contains_iff_mem_keys, keys_mapValues, ← contains_iff_mem_keys, mem_domain]

omit [Std.LawfulEqOrd κ] [Std.TransOrd κ] in
/-- No entry is lost if every entry has a value. -/
theorem size_filterMap {β : Type v} {f : κ → α → Option β} {m : SortedMap κ α}
    (h : ∀ e ∈ m.entries, (f e.1 e.2).isSome = true) : (m.filterMap f).size = m.size := by
  have hlength : (m.entries.filterMap fun e => (f e.1 e.2).map (e.1, ·)).length =
      m.entries.length := by
    rw [List.filterMap_length_eq_length]
    intro e he
    rw [Option.isSome_map]
    exact h e he
  exact hlength

end SortedMap

namespace SortedSet
variable {κ : Type u} [Ord κ] [Std.LawfulEqOrd κ] [Std.TransOrd κ] [DecidableEq κ]

omit [DecidableEq κ] in
theorem ofList_toList (s : SortedSet κ) : SortedSet.ofList s.toList = s := by
  rw [ofList, toList, SortedMap.keys, List.foldl_map]
  exact SortedMap.ofList_entries s

omit [DecidableEq κ] in
theorem ext_domain {a b : SortedSet κ} (h : a.domain = b.domain) : a = b := by
  apply SortedMap.ext_get?
  intro key
  have hkey : a.contains key = true ↔ b.contains key = true := by
    rw [← SortedMap.mem_domain, ← SortedMap.mem_domain, h]
  rw [SortedMap.contains, SortedMap.contains] at hkey
  cases ha : a.get? key <;> cases hb : b.get? key <;> simp_all

omit [DecidableEq κ] in
theorem keys_eq_toList {α : Type v} {m : SortedMap κ α} {s : SortedSet κ}
    (h : m.domain = s.domain) : m.keys = s.toList := by
  have hkeys : SortedSet.toList (m.mapValues fun _ => ()) = m.keys := SortedMap.keys_mapValues _ _
  have hset : (m.mapValues fun _ => () : SortedSet κ) = s := by
    apply ext_domain
    rw [SortedMap.domain_mapValues, h]
  rw [← hkeys, hset]

omit [DecidableEq κ] in
/-- The keys of a map, as a set. -/
theorem ofList_keys {α : Type v} {m : SortedMap κ α} {s : SortedSet κ}
    (h : m.domain = s.domain) : SortedSet.ofList m.keys = s := by
  rw [keys_eq_toList h, ofList_toList]

theorem domain_insert (s : SortedSet κ) (key : κ) :
    (SortedSet.insert s key).domain = Insert.insert key s.domain :=
  SortedMap.domain_insert s key ()

theorem domain_singleton (key : κ) : (SortedSet.singleton key).domain = {key} := by
  rw [singleton, domain_insert]
  rfl

end SortedSet

end QuorumRounds
