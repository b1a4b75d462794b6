import QuorumRounds.Proofs.Store.Reads

/-! # A store that forgets nothing

A `PlainStore` is what a store means to its readers: the number of the period, and all the values
that each key has been given in it. It has no old periods, and forgetting does nothing to it.

The store has the same reads as the plain one after any operations (`reads_of_run`). Its histories may
be shorter, at the old end and by no more than all values but the last (`Recalls`), and only where
values have been forgotten since the period was opened (`Trimmed`).
-/

namespace QuorumRounds
set_option autoImplicit false

structure PlainStore where
  setup : SortedMap String Value
  period : Nat
  /-- Oldest first. -/
  values : String → List Value

namespace Store

inductive Operation where
  | update (updates : List (String × Value))
  | create (keys : List String)
  | cleanup (periodDepth : Nat) (historyDepth : Option Nat)

def apply (store : Store) : Operation → Checked Store
  | .update updates => .ok (store.update updates)
  | .create keys => store.create keys
  | .cleanup periodDepth historyDepth => .ok (store.cleanup periodDepth historyDepth)

def run (store : Store) (operations : List Operation) : Checked Store :=
  operations.foldlM apply store

/-- Old values have been forgotten since the current period was opened. -/
def Trimmed (operations : List Operation) : Prop :=
  ∃ before periodDepth historyDepth after,
    operations = before ++ .cleanup periodDepth (some historyDepth) :: after ∧
      ∀ keys, .create keys ∉ after

end Store

namespace PlainStore

def ofSetup (setup : SortedMap String Value) : PlainStore :=
  ⟨setup, 0, fun key => (setup.get? key).toList⟩

def get? (plain : PlainStore) (key : String) : Option Value := (plain.values key).getLast?

def apply (plain : PlainStore) : Store.Operation → PlainStore
  | .update updates =>
    { plain with values := fun key => plain.values key ++ Store.written key updates }
  | .create keys =>
    { plain with
      period := plain.period + 1
      values := fun key =>
        ((if key ∈ keys then plain.get? key else none).or (plain.setup.get? key)).toList }
  | .cleanup _ _ => plain

def run (plain : PlainStore) (operations : List Store.Operation) : PlainStore :=
  operations.foldl apply plain

theorem period_le_apply (plain : PlainStore) (operation : Store.Operation) :
    plain.period ≤ (plain.apply operation).period := by
  cases operation with
  | update updates => exact Nat.le_refl _
  | create keys => exact Nat.le_succ _
  | cleanup periodDepth historyDepth => exact Nat.le_refl _

theorem run_concat (plain : PlainStore) (operations : List Store.Operation)
    (operation : Store.Operation) :
    plain.run (operations ++ [operation]) = (plain.run operations).apply operation := by
  rw [run, List.foldl_append]
  rfl

end PlainStore

namespace Store

/-! ## What a history still holds -/

theorem run_concat (store : Store) (operations : List Operation) (operation : Operation) :
    store.run (operations ++ [operation]) =
      store.run operations >>= fun last => last.apply operation := by
  simp only [run, List.foldlM_append, List.foldlM_cons, List.foldlM_nil, bind_pure]

theorem Trimmed.concat {operations : List Operation} {operation : Operation}
    (h : Trimmed operations) (hopens : ∀ keys, operation ≠ .create keys) :
    Trimmed (operations ++ [operation]) := by
  obtain ⟨before, periodDepth, historyDepth, after, rfl, hafter⟩ := h
  refine ⟨before, periodDepth, historyDepth, after ++ [operation], by simp, ?_⟩
  intro keys hmem
  rcases List.mem_append.1 hmem with hold | hnew
  · exact hafter keys hold
  · exact hopens keys (List.mem_singleton.1 hnew).symm

theorem lastItems_ne_nil {α : Type} {items : List α} {n : Nat} (hsome : items ≠ []) (hn : 1 ≤ n) :
    lastItems n items ≠ [] := by
  intro hnone
  have hlength := List.length_pos_iff.2 hsome
  have hdrop := List.drop_eq_nil_iff.1 hnone
  omega

/-- The history of a key that has been given these values. Unless the period has been trimmed, it
holds all of them. -/
inductive Recalls (trimmed : Prop) : Option (List Value) → List Value → Prop where
  | unset : Recalls trimmed none []
  | set {history values : List Value} (hsome : history ≠ []) (hsuffix : history <:+ values)
    (hall : ¬trimmed → history = values) : Recalls trimmed (some history) values

namespace Recalls
variable {trimmed : Prop} {history : Option (List Value)} {values : List Value}

theorem getLast? (h : Recalls trimmed history values) :
    history.bind List.getLast? = values.getLast? := by
  cases h with
  | unset => rfl
  | @set history _ hsome hsuffix =>
    obtain ⟨forgotten, rfl⟩ := hsuffix
    rw [Option.bind_some, List.getLast?_append, List.getLast?_eq_some_getLast hsome, Option.some_or]

theorem mono {later : Prop} (h : Recalls trimmed history values) (himp : trimmed → later) :
    Recalls later history values := by
  cases h with
  | unset => exact .unset
  | set hsome hsuffix hall => exact .set hsome hsuffix fun hnot => hall fun ht => hnot (himp ht)

theorem opened (value : Option Value) : Recalls trimmed (value.map ([·])) value.toList := by
  cases value with
  | none => exact .unset
  | some value => exact .set (List.cons_ne_nil _ _) (List.suffix_refl _) fun _ => rfl

theorem append (h : Recalls trimmed history values) (more : List Value) :
    Recalls trimmed (if more = [] then history else some (history.getD [] ++ more))
      (values ++ more) := by
  by_cases hmore : more = []
  · rw [if_pos hmore, hmore, List.append_nil]
    exact h
  · rw [if_neg hmore]
    have hsome : history.getD [] ++ more ≠ [] := fun heq =>
      hmore (List.append_eq_nil_iff.1 heq).2
    cases h with
    | unset => exact .set hsome (List.suffix_refl _) fun _ => rfl
    | @set history _ _ hsuffix hall =>
      refine .set hsome ?_ fun hnot => ?_
      · obtain ⟨forgotten, rfl⟩ := hsuffix
        exact ⟨forgotten, by rw [Option.getD_some, List.append_assoc]⟩
      · rw [Option.getD_some, hall hnot]

/-- The latest value is never forgotten. -/
theorem trim (h : Recalls trimmed history values) (htrimmed : trimmed) (depth : Nat) :
    Recalls trimmed (history.map (lastItems (max depth 1))) values := by
  cases h with
  | unset => exact .unset
  | @set history _ hsome hsuffix =>
    exact .set (lastItems_ne_nil hsome (Nat.le_max_right _ _))
      ((List.drop_suffix _ _).trans hsuffix) fun hnot => absurd htrimmed hnot

end Recalls

/-! ## The store and the plain store -/

structure Matches (trimmed : Prop) (store : Store) (plain : PlainStore) : Prop where
  setup_eq : store.setup = plain.setup
  period_eq : store.period.toNat = plain.period
  recalls : ∀ key, Recalls trimmed (store.history? key) (plain.values key)

namespace Matches
variable {trimmed : Prop} {store : Store} {plain : PlainStore}

theorem get?_eq (h : Matches trimmed store plain) (key : String) :
    store.get? key = plain.get? key := (h.recalls key).getLast?

theorem ofSetup (setup : SortedMap String Value) :
    Matches trimmed (Store.ofSetup setup) (PlainStore.ofSetup setup) where
  setup_eq := rfl
  period_eq := rfl
  recalls := by
    intro key
    rw [history?_ofSetup]
    exact .opened _

theorem update (h : Matches trimmed store plain) (updates : List (String × Value)) :
    Matches trimmed (store.update updates) (plain.apply (.update updates)) where
  setup_eq := h.setup_eq
  period_eq := h.period_eq
  recalls := by
    intro key
    rw [history?_update_all]
    exact (h.recalls key).append _

theorem create {later : Prop} {next : Store} {keys : List String}
    (h : Matches trimmed store plain) (hcreate : store.create keys = .ok next) :
    Matches later next (plain.apply (.create keys)) where
  setup_eq := by
    rw [(create_eq_ok hcreate).2]
    exact h.setup_eq
  period_eq := by
    rw [Word.succ_eq_ok_iff.1 (create_eq_ok hcreate).1, h.period_eq]
    rfl
  recalls := by
    intro key
    rw [history?_create hcreate, h.get?_eq, h.setup_eq]
    exact .opened _

theorem cleanup (h : Matches trimmed store plain) {historyDepth : Option Nat}
    (htrimmed : historyDepth.isSome → trimmed) (periodDepth : Nat) :
    Matches trimmed (store.cleanup periodDepth historyDepth)
      (plain.apply (.cleanup periodDepth historyDepth)) where
  setup_eq := (setup_cleanup _ _ _).trans h.setup_eq
  period_eq := (congrArg UInt64.toNat (period_cleanup _ _ _)).trans h.period_eq
  recalls := by
    intro key
    cases historyDepth with
    | none =>
      rw [history?_cleanup]
      exact h.recalls key
    | some depth =>
      rw [history?_cleanup_some]
      exact (h.recalls key).trim (htrimmed rfl) depth

/-- One more operation, which overflows only if the number of the period does. -/
theorem apply {operations : List Operation} {operation : Operation}
    (h : Matches (Trimmed operations) store plain)
    (hfits : (plain.apply operation).period < UInt64.size) :
    ∃ next, store.apply operation = .ok next ∧
      Matches (Trimmed (operations ++ [operation])) next (plain.apply operation) := by
  have hgrown : ∀ {later : Prop}, (Trimmed operations → later) → Matches later store plain :=
    fun himp => ⟨h.setup_eq, h.period_eq, fun key => (h.recalls key).mono himp⟩
  cases operation with
  | update updates =>
    refine ⟨_, rfl, (hgrown fun ht => ?_).update updates⟩
    exact ht.concat fun keys heq => by cases heq
  | create keys =>
    have hbound : store.period.toNat + 1 < UInt64.size := by
      rw [h.period_eq]
      exact hfits
    obtain ⟨next, hnext⟩ := exists_create keys hbound
    exact ⟨next, hnext, h.create hnext⟩
  | cleanup periodDepth historyDepth =>
    refine ⟨_, rfl, (hgrown fun ht => ?_).cleanup ?_ periodDepth⟩
    · exact ht.concat fun keys heq => by cases heq
    · intro hdepth
      obtain ⟨depth, rfl⟩ := Option.isSome_iff_exists.1 hdepth
      exact ⟨operations, periodDepth, depth, [], rfl, fun _ => List.not_mem_nil⟩

theorem run {setup : SortedMap String Value} {operations : List Operation}
    (hfits : ((PlainStore.ofSetup setup).run operations).period < UInt64.size) :
    ∃ store, (Store.ofSetup setup).run operations = .ok store ∧
      Matches (Trimmed operations) store ((PlainStore.ofSetup setup).run operations) := by
  induction operations using List.reverseRecOn with
  | nil => exact ⟨_, rfl, .ofSetup setup⟩
  | append_singleton operations operation ih =>
    rw [PlainStore.run_concat] at hfits ⊢
    obtain ⟨store, hrun, hmatches⟩ :=
      ih (Nat.lt_of_le_of_lt (PlainStore.period_le_apply _ operation) hfits)
    obtain ⟨next, hnext, hafter⟩ := hmatches.apply hfits
    refine ⟨next, ?_, hafter⟩
    rw [run_concat, hrun]
    exact hnext

end Matches

/-! ## Any operations -/

theorem reads_of_run {setup : SortedMap String Value} {operations : List Operation}
    (hfits : ((PlainStore.ofSetup setup).run operations).period < UInt64.size) :
    ∃ store, (ofSetup setup).run operations = .ok store ∧
      store.period.toNat = ((PlainStore.ofSetup setup).run operations).period ∧
      ∀ key, store.get? key = ((PlainStore.ofSetup setup).run operations).get? key ∧
        store.latest.get? key = ((PlainStore.ofSetup setup).run operations).get? key ∧
        Recalls (Trimmed operations) (store.history? key)
          (((PlainStore.ofSetup setup).run operations).values key) := by
  obtain ⟨store, hrun, hmatches⟩ := Matches.run hfits
  refine ⟨store, hrun, hmatches.period_eq, fun key => ⟨hmatches.get?_eq key, ?_,
    hmatches.recalls key⟩⟩
  rw [get?_latest, hmatches.get?_eq]

def someSetup : SortedMap String Value := SortedMap.insert ∅ "fee" (.uint 7)

/-- A key is written twice at once and trimmed, carried twice, and written again. -/
def someOperations : List Operation :=
  [.update [("price", .uint 1), ("price", .uint 2), ("fee", .uint 8)], .cleanup 0 (some 0),
    .create ["price", "price", "name"], .update [("price", .uint 3), ("name", .text "a")],
    .cleanup 1 none]

theorem reads_of_run_some :
    ((PlainStore.ofSetup someSetup).run someOperations).period < UInt64.size ∧
      ∃ store, (ofSetup someSetup).run someOperations = .ok store ∧ store.period.toNat = 1 ∧
        store.get? "price" = some (.uint 3) ∧ store.get? "fee" = some (.uint 7) ∧
        Recalls (Trimmed someOperations) (store.history? "price") [.uint 2, .uint 3] := by
  have hfits : ((PlainStore.ofSetup someSetup).run someOperations).period < UInt64.size := by
    decide
  obtain ⟨store, hrun, hperiod, hreads⟩ := reads_of_run hfits
  exact ⟨hfits, store, hrun, hperiod, (hreads "price").1, (hreads "fee").1, (hreads "price").2.2⟩

end Store

end QuorumRounds
