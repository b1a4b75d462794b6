import QuorumRounds.Proofs.SortedMap.Domain
import QuorumRounds.Value.Basic

/-! # Values whose maps are put in order

The entries of a map may be listed in any order, and with keys that occur more than once.
`Value.arranged` is the value that is meant: every map in it, at any depth, has its keys in order,
and the last of several entries for one key. A value that is in order already stays as it is, and
only such a value does (`arranged_eq_iff`).

`Value.Fits depth` says that a value is nested less than `depth` levels deep, and that its lengths are
64-bit numbers, as they are of everything that is held in memory (`Value.Countable`). -/

namespace QuorumRounds
set_option autoImplicit false

universe u v

namespace SortedMap
variable {κ : Type u} {α : Type v} [Ord κ] [Std.TransOrd κ]

theorem forall_mem_ofList {entries : List (κ × α)} {p : κ × α → Prop} (h : ∀ e ∈ entries, p e) :
    ∀ e ∈ (ofList entries).entries, p e := by
  induction entries using List.reverseRecOn with
  | nil => exact fun e he => absurd he List.not_mem_nil
  | append_singleton entries last ih =>
    intro e he
    rw [ofList_concat] at he
    rcases mem_insertEntry he with rfl | hold
    · exact h last (by simp)
    · exact ih (fun e he => h e (List.mem_append_left _ he)) e hold

theorem size_ofList_le [Std.LawfulEqOrd κ] (entries : List (κ × α)) :
    (ofList entries).size ≤ entries.length := by
  classical
  rw [← card_domain, domain_ofList]
  exact (List.toFinset_card_le _).trans_eq (List.length_map _)

end SortedMap

namespace Value

/-- The items of a list and the values of a map are smaller values. -/
theorem induct {motive : Value → Prop} (null : motive .null) (bool : ∀ b, motive (.bool b))
    (int : ∀ i, motive (.int i)) (uint : ∀ u, motive (.uint u)) (float : ∀ x, motive (.float x))
    (text : ∀ s, motive (.text s)) (bytes : ∀ data, motive (.bytes data))
    (list : ∀ items, (∀ item ∈ items, motive item) → motive (.list items))
    (map : ∀ entries, (∀ e ∈ entries, motive e.2) → motive (.map entries)) (v : Value) :
    motive v :=
  @Value.rec motive (fun items => ∀ item ∈ items, motive item)
    (fun entries => ∀ e ∈ entries, motive e.2) (fun e => motive e.2) null bool int uint float text
    bytes list map (by simp) (fun _ _ hitem hrest => List.forall_mem_cons.2 ⟨hitem, hrest⟩)
    (by simp) (fun _ _ hentry hrest => List.forall_mem_cons.2 ⟨hentry, hrest⟩) (fun _ _ h => h) v

/-! ## Order at every depth -/

theorem itemsOrdered_iff {items : List Value} :
    ItemsOrdered items ↔ ∀ item ∈ items, item.Ordered := by
  induction items with
  | nil => simp [ItemsOrdered]
  | cons item rest ih => rw [ItemsOrdered, ih, List.forall_mem_cons]

theorem entriesOrdered_iff {entries : List (String × Value)} :
    EntriesOrdered entries ↔ ∀ e ∈ entries, e.2.Ordered := by
  induction entries with
  | nil => simp [EntriesOrdered]
  | cons e rest ih =>
    obtain ⟨key, value⟩ := e
    rw [EntriesOrdered, ih, List.forall_mem_cons]

mutual

def arranged : Value → Value
  | .list items => .list (arrangedItems items)
  | .map entries => .ofMap (SortedMap.ofList (arrangedEntries entries))
  | value => value

def arrangedItems : List Value → List Value
  | [] => []
  | item :: rest => arranged item :: arrangedItems rest

def arrangedEntries : List (String × Value) → List (String × Value)
  | [] => []
  | (key, value) :: rest => (key, arranged value) :: arrangedEntries rest

end

theorem arrangedItems_eq (items : List Value) : arrangedItems items = items.map arranged := by
  induction items with
  | nil => rfl
  | cons item rest ih => rw [arrangedItems, ih, List.map_cons]

theorem arrangedEntries_eq (entries : List (String × Value)) :
    arrangedEntries entries = entries.map (Prod.map id arranged) := by
  induction entries with
  | nil => rfl
  | cons e rest ih => rw [arrangedEntries, ih, List.map_cons, Prod.map_apply, id]

theorem arranged_list (items : List Value) :
    arranged (.list items) = .list (items.map arranged) := by
  rw [arranged, arrangedItems_eq]

theorem arranged_map (entries : List (String × Value)) :
    arranged (.map entries) = .ofMap (.ofList (entries.map (Prod.map id arranged))) := by
  rw [arranged, arrangedEntries_eq]

theorem ordered_arranged (v : Value) : v.arranged.Ordered := by
  induction v using Value.induct with
  | null | bool | int | uint | float | text | bytes => exact trivial
  | list items ih =>
    rw [arranged_list, Ordered, itemsOrdered_iff]
    exact List.forall_mem_map.2 ih
  | map entries ih =>
    rw [arranged_map, ofMap, Ordered, entriesOrdered_iff]
    exact ⟨SortedMap.keysIncrease _, SortedMap.forall_mem_ofList (List.forall_mem_map.2 ih)⟩

theorem arranged_of_ordered {v : Value} (h : v.Ordered) : v.arranged = v := by
  induction v using Value.induct with
  | null | bool | int | uint | float | text | bytes => rfl
  | list items ih =>
    rw [Ordered, itemsOrdered_iff] at h
    rw [arranged_list, List.map_congr_left fun item hitem => ih item hitem (h item hitem),
      List.map_id']
  | map entries ih =>
    rw [Ordered, entriesOrdered_iff] at h
    obtain ⟨hkeys, hvalues⟩ := h
    have hsame : entries.map (Prod.map id arranged) = entries := by
      refine (List.map_congr_left fun e he => ?_).trans (List.map_id entries)
      exact Prod.ext rfl (ih e he (hvalues e he))
    rw [arranged_map, hsame, ofMap]
    exact congrArg (fun m => Value.map (SortedMap.entries m))
      (SortedMap.ofList_entries ⟨entries, hkeys⟩)

theorem arranged_eq_iff {v : Value} : v.arranged = v ↔ v.Ordered :=
  ⟨fun h => h ▸ ordered_arranged v, arranged_of_ordered⟩

/-! ## Lengths at every depth -/

def Fits : Nat → Value → Prop
  | 0, _ => False
  | _ + 1, .text s => s.toByteArray.size < UInt64.size
  | _ + 1, .bytes data => data.length < UInt64.size
  | depth + 1, .list items => items.length < UInt64.size ∧ ∀ item ∈ items, Fits depth item
  | depth + 1, .map entries => entries.length < UInt64.size ∧
      ∀ e ∈ entries, e.1.toByteArray.size < UInt64.size ∧ Fits depth e.2
  | _ + 1, _ => True

def Countable (v : Value) : Prop := ∃ depth, v.Fits depth

theorem Fits.mono {depth more : Nat} {v : Value} (h : v.Fits depth) (hle : depth ≤ more) :
    v.Fits more := by
  induction depth generalizing more v with
  | zero => exact h.elim
  | succ depth ih =>
    obtain ⟨more, rfl⟩ := Nat.exists_eq_add_of_le' (Nat.le_of_add_left_le hle)
    have hle := Nat.le_of_succ_le_succ hle
    cases v with
    | null | bool | int | uint | float => exact trivial
    | text | bytes => exact h
    | list items => exact ⟨h.1, fun item hitem => ih (h.2 item hitem) hle⟩
    | map entries => exact ⟨h.1, fun e he => ⟨(h.2 e he).1, ih (h.2 e he).2 hle⟩⟩

/-- Nothing is added to a value that is put in order. -/
theorem Fits.arranged {depth : Nat} {v : Value} (h : v.Fits depth) : v.arranged.Fits depth := by
  induction depth generalizing v with
  | zero => exact h.elim
  | succ depth ih =>
    cases v with
    | null | bool | int | uint | float => exact trivial
    | text | bytes => exact h
    | list items =>
      rw [arranged_list, Fits, List.length_map]
      exact ⟨h.1, List.forall_mem_map.2 fun item hitem => ih (h.2 item hitem)⟩
    | map entries =>
      rw [arranged_map, ofMap, Fits]
      refine ⟨Nat.lt_of_le_of_lt (SortedMap.size_ofList_le _) ?_, SortedMap.forall_mem_ofList
        (List.forall_mem_map.2 fun e he => ⟨(h.2 e he).1, ih (h.2 e he).2⟩)⟩
      rw [List.length_map]
      exact h.1

theorem Countable.arranged {v : Value} (h : v.Countable) : v.arranged.Countable :=
  h.imp fun _ hfits => hfits.arranged

end Value

end QuorumRounds
