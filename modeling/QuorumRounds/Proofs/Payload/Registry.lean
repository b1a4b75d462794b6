import Mathlib.Data.List.Induction
import QuorumRounds.PriceOracle.Payload
import QuorumRounds.SortedMap.Lemmas

/-! # Kinds are bound once

A registry answers by kind (`Registry.resolve`), and a registration adds one answer or none
(`resolve_register`). So the layout of a kind is the one that was registered first, until the
registry is cleared or another one is put in its place (`Journal.Permanent`).

A list of layouts is registered in order, up to the first entry that contradicts an earlier one
(`FirstConflict`). Without such an entry, the registry binds what is listed and nothing else
(`Binds`), so that neither the order of the entries nor their number matters. -/

namespace QuorumRounds.Registry
set_option autoImplicit false

variable {κ : Type} [Ord κ] [Named κ] {registry next : Registry κ} {kind : κ} {shape : Shape}

/-! ## One registration -/

theorem resolve_eq_ok_iff :
    registry.resolve kind = .ok shape ↔ registry.shapes.get? kind = some shape := by
  unfold resolve
  cases registry.shapes.get? kind with
  | none => simp
  | some existing => simp

theorem resolve_empty (kind : κ) :
    (∅ : Registry κ).resolve kind = .error (.unknownTransactionType (name kind)) := rfl

/-- A kind without a layout is unknown. -/
theorem resolve_eq_error (h : ∀ shape, registry.resolve kind ≠ .ok shape) :
    registry.resolve kind = .error (.unknownTransactionType (name kind)) := by
  unfold resolve at h ⊢
  cases hget : registry.shapes.get? kind with
  | none => rfl
  | some existing =>
    rw [hget] at h
    exact absurd rfl (h existing)

variable [Std.TransOrd κ]

theorem exists_register_iff :
    (∃ next, registry.register kind shape = .ok next) ↔
      registry.resolve kind = .error (.unknownTransactionType (name kind)) ∨
        registry.resolve kind = .ok shape := by
  unfold register resolve
  cases registry.shapes.get? kind with
  | none => simp
  | some existing =>
    by_cases hsame : existing = shape
    · simp [hsame]
    · simp [hsame]

theorem register_eq_error_iff {e : Error} :
    registry.register kind shape = .error e ↔
      ∃ existing, registry.resolve kind = .ok existing ∧ existing ≠ shape ∧
        e = .duplicateRegistration (name kind) existing.name shape.name := by
  unfold register resolve
  cases registry.shapes.get? kind with
  | none => simp
  | some existing =>
    by_cases hsame : existing = shape
    · simp [hsame]
    · simp only [hsame, if_false, Except.error.injEq, Except.ok.injEq, exists_eq_left', ne_eq,
        not_false_eq_true, true_and, @eq_comm _ e]

variable [Std.LawfulEqOrd κ]

theorem ext_resolve {other : Registry κ}
    (h : ∀ kind shape, registry.resolve kind = .ok shape ↔ other.resolve kind = .ok shape) :
    registry = other := by
  have hshapes : registry.shapes = other.shapes := by
    refine SortedMap.ext_get? fun kind => Option.ext fun shape => ?_
    rw [← resolve_eq_ok_iff, h, resolve_eq_ok_iff]
  cases registry
  cases other
  cases hshapes
  rfl

variable [DecidableEq κ]

theorem resolve_register (h : registry.register kind shape = .ok next) (other : κ) :
    next.resolve other = if other = kind then .ok shape else registry.resolve other := by
  unfold register at h
  cases hget : registry.shapes.get? kind with
  | none =>
    rw [hget] at h
    cases h
    rw [resolve, SortedMap.get?_insert]
    by_cases hkind : other = kind
    · rw [if_pos hkind, if_pos hkind]
    · rw [if_neg hkind, if_neg hkind, resolve]
  | some existing =>
    simp only [hget] at h
    by_cases hsame : existing = shape
    · rw [if_pos hsame] at h
      cases h
      by_cases hkind : other = kind
      · rw [if_pos hkind, hkind, resolve_eq_ok_iff, hget, hsame]
      · rw [if_neg hkind]
    · rw [if_neg hsame] at h
      cases h

/-- A kind that is bound stays bound to the same layout. -/
theorem resolve_register_of_bound {other : κ} {layout : Shape}
    (hbound : registry.resolve kind = .ok shape)
    (h : registry.register other layout = .ok next) : next.resolve kind = .ok shape := by
  rw [resolve_register h]
  by_cases hkind : kind = other
  · subst hkind
    rcases exists_register_iff.1 ⟨next, h⟩ with hnone | hsame
    · cases hnone.symm.trans hbound
    · rw [if_pos rfl, ← hsame, hbound]
  · rw [if_neg hkind, hbound]

/-! ## Lists of layouts -/

/-- No kind is listed with two layouts. -/
def Consistent (entries : List (κ × Shape)) : Prop :=
  ∀ a ∈ entries, ∀ b ∈ entries, a.1 = b.1 → a.2 = b.2

instance (entries : List (κ × Shape)) : Decidable (Consistent entries) :=
  inferInstanceAs (Decidable (∀ a ∈ entries, ∀ b ∈ entries, a.1 = b.1 → a.2 = b.2))

/-- An entry has another layout than an earlier one of its kind, and no entry before it has: the
error names its kind and both layouts. -/
inductive FirstConflict : List (κ × Shape) → Error → Prop where
  | intro {before : List (κ × Shape)} (after : List (κ × Shape)) {kind : κ}
      {existing shape : Shape} (consistent : Consistent before)
      (listed : (kind, existing) ∈ before) (differs : existing ≠ shape) :
      FirstConflict (before ++ (kind, shape) :: after)
        (.duplicateRegistration (name kind) existing.name shape.name)

/-- The registry has the listed layouts, and no others. -/
def Binds (registry : Registry κ) (entries : List (κ × Shape)) : Prop :=
  ∀ kind shape, registry.resolve kind = .ok shape ↔ (kind, shape) ∈ entries

omit [Ord κ] [Std.TransOrd κ] [Std.LawfulEqOrd κ] [DecidableEq κ] in
theorem FirstConflict.append {entries : List (κ × Shape)} {e : Error}
    (h : FirstConflict entries e) (more : List (κ × Shape)) : FirstConflict (entries ++ more) e := by
  obtain ⟨after, hconsistent, hlisted, hdiffers⟩ := h
  rw [List.append_assoc, List.cons_append]
  exact .intro (after ++ more) hconsistent hlisted hdiffers

omit [Ord κ] [Std.TransOrd κ] [Std.LawfulEqOrd κ] [DecidableEq κ] in
theorem FirstConflict.not_consistent {entries : List (κ × Shape)} {e : Error}
    (h : FirstConflict entries e) : ¬Consistent entries := by
  intro hconsistent
  cases h with
  | @intro before after kind existing shape _ hlisted hdiffers =>
    have hlater : (kind, shape) ∈ before ++ (kind, shape) :: after := by simp
    exact hdiffers (hconsistent _ (List.mem_append_left _ hlisted) _ hlater rfl)

namespace Binds
variable {entries : List (κ × Shape)}

omit [Std.TransOrd κ] [Std.LawfulEqOrd κ] [DecidableEq κ] in
theorem empty : Binds (∅ : Registry κ) [] := fun kind shape => by simp [resolve_empty]

omit [Std.TransOrd κ] [Std.LawfulEqOrd κ] [DecidableEq κ] in
theorem consistent (h : registry.Binds entries) : Consistent entries := by
  rintro ⟨kind, shape⟩ ha ⟨_, other⟩ hb rfl
  rw [← h] at ha hb
  exact Except.ok.inj (ha.symm.trans hb)

omit [DecidableEq κ] in
theorem unique {other : Registry κ} (h : registry.Binds entries) (h' : other.Binds entries) :
    registry = other := ext_resolve fun kind shape => (h kind shape).trans (h' kind shape).symm

theorem register (h : registry.Binds entries) (hnext : registry.register kind shape = .ok next) :
    next.Binds (entries ++ [(kind, shape)]) := by
  intro other layout
  rw [List.mem_append, List.mem_singleton, ← h, Prod.mk.injEq]
  constructor
  · intro hother
    rw [resolve_register hnext] at hother
    by_cases hkind : other = kind
    · rw [if_pos hkind] at hother
      exact .inr ⟨hkind, (Except.ok.inj hother).symm⟩
    · rw [if_neg hkind] at hother
      exact .inl hother
  · rintro (hbound | ⟨rfl, rfl⟩)
    · exact resolve_register_of_bound hbound hnext
    · rw [resolve_register hnext, if_pos rfl]

omit [Std.LawfulEqOrd κ] [DecidableEq κ] in
theorem conflict {e : Error} (h : registry.Binds entries)
    (herror : registry.register kind shape = .error e) :
    FirstConflict (entries ++ [(kind, shape)]) e := by
  obtain ⟨existing, hexisting, hdiffers, rfl⟩ := register_eq_error_iff.1 herror
  exact .intro [] h.consistent ((h _ _).1 hexisting) hdiffers

end Binds

section Lists
variable {entries : List (κ × Shape)}

omit [Std.LawfulEqOrd κ] [DecidableEq κ] in
theorem ofShapes_append (entries more : List (κ × Shape)) :
    ofShapes (entries ++ more) =
      ofShapes entries >>= more.foldlM fun registry entry => registry.register entry.1 entry.2 :=
  List.foldlM_append

omit [Std.LawfulEqOrd κ] [DecidableEq κ] in
theorem ofShapes_concat (entries : List (κ × Shape)) (entry : κ × Shape) :
    ofShapes (entries ++ [entry]) =
      ofShapes entries >>= fun registry => registry.register entry.1 entry.2 := by
  rw [ofShapes_append]
  simp only [List.foldlM_cons, List.foldlM_nil, bind_pure]

theorem ofShapes_cases (entries : List (κ × Shape)) :
    (∃ registry, ofShapes entries = .ok registry ∧ registry.Binds entries) ∨
      ∃ e, ofShapes entries = .error e ∧ FirstConflict entries e := by
  induction entries using List.reverseRecOn with
  | nil => exact .inl ⟨∅, rfl, .empty⟩
  | append_singleton entries entry ih =>
    rw [ofShapes_concat]
    rcases ih with ⟨registry, hok, hbinds⟩ | ⟨e, herror, hconflict⟩
    · rw [hok]
      cases hregister : registry.register entry.1 entry.2 with
      | ok next => exact .inl ⟨next, hregister, hbinds.register hregister⟩
      | error e => exact .inr ⟨e, hregister, hbinds.conflict hregister⟩
    · -- Nothing is registered after a failure, so the conflict stays the first one.
      rw [herror]
      exact .inr ⟨e, rfl, hconflict.append [entry]⟩

theorem exists_ofShapes_iff :
    (∃ registry, ofShapes entries = .ok registry) ↔ Consistent entries := by
  rcases ofShapes_cases entries with ⟨registry, hok, hbinds⟩ | ⟨e, herror, hconflict⟩
  · exact ⟨fun _ => hbinds.consistent, fun _ => ⟨registry, hok⟩⟩
  · refine ⟨?_, fun hconsistent => absurd hconsistent hconflict.not_consistent⟩
    rintro ⟨registry, hok⟩
    cases herror.symm.trans hok

theorem ofShapes_eq_ok_iff : ofShapes entries = .ok registry ↔ registry.Binds entries := by
  rcases ofShapes_cases entries with ⟨built, hok, hbinds⟩ | ⟨e, herror, hconflict⟩
  · rw [hok, Except.ok.injEq]
    constructor
    · rintro rfl
      exact hbinds
    · exact hbinds.unique
  · constructor
    · intro hok
      cases herror.symm.trans hok
    · intro hbinds
      exact absurd hbinds.consistent hconflict.not_consistent

theorem ofShapes_eq_error_iff {e : Error} :
    ofShapes entries = .error e ↔ FirstConflict entries e := by
  constructor
  · intro herror
    rcases ofShapes_cases entries with ⟨registry, hok, _⟩ | ⟨e', herror', hconflict⟩
    · cases herror.symm.trans hok
    · cases herror.symm.trans herror'
      exact hconflict
  · rintro ⟨after, hconsistent, hlisted, hdiffers⟩
    obtain ⟨registry, hok⟩ := exists_ofShapes_iff.2 hconsistent
    have hexisting := (ofShapes_eq_ok_iff.1 hok _ _).2 hlisted
    have herror := register_eq_error_iff.2 ⟨_, hexisting, hdiffers, rfl⟩
    rw [ofShapes_append, hok]
    change List.foldlM _ registry _ = _
    rw [List.foldlM_cons, herror]
    rfl

end Lists

/-! ## Any calls -/

omit [Std.LawfulEqOrd κ] [DecidableEq κ] in
theorem eq_of_call_eq_error {c : Call κ} {e : Error} (h : registry.call c = (.error e, next)) :
    next = registry := by
  cases c with
  | register kind shape => exact (answered_eq_error_iff.1 h).2
  | bootstrap entries => exact (answered_eq_error_iff.1 h).2
  | restore snapshot => cases h
  | clear => cases h

/-- A registry, and what has happened to it since it was last cleared or replaced: what was there
then, and the registrations that have succeeded since, in order. -/
structure Journal (κ : Type) [Ord κ] where
  registry : Registry κ
  start : Registry κ
  granted : List (κ × Shape)

namespace Journal

/-- What is written down of a call that has succeeded: with the registry that it was made on, and the
one that it has left behind. The registrations of a bootstrap are its list. -/
def succeeded (journal : Journal κ) (after : Registry κ) : Call κ → Journal κ
  | .register kind shape => ⟨after, journal.start, journal.granted ++ [(kind, shape)]⟩
  | .bootstrap entries => ⟨after, ∅, entries⟩
  | .restore snapshot => ⟨after, snapshot, []⟩
  | .clear => ⟨after, ∅, []⟩

/-- Makes the call, and writes it down if it succeeds. -/
def call (journal : Journal κ) (c : Call κ) : Except Error Unit × Journal κ :=
  match journal.registry.call c with
  | (.ok (), after) => (.ok (), journal.succeeded after c)
  | (.error e, after) => (.error e, { journal with registry := after })

def run (calls : List (Call κ)) : Journal κ :=
  calls.foldl (fun journal c => (journal.call c).2) ⟨∅, ∅, []⟩

/-- All registrations of a kind have had the layout that it still has, and a kind that has not been
registered has kept the one that it had. -/
structure Permanent (journal : Journal κ) : Prop where
  granted : ∀ entry ∈ journal.granted, journal.registry.resolve entry.1 = .ok entry.2
  others : ∀ kind, kind ∉ journal.granted.map Prod.fst →
    journal.registry.resolve kind = journal.start.resolve kind

omit [Std.LawfulEqOrd κ] [DecidableEq κ] in
/-- What is written down of a call that has failed is nothing. -/
theorem call_cases (journal : Journal κ) (c : Call κ) :
    (∃ e, journal.call c = (.error e, journal)) ∨
      ∃ after, journal.registry.call c = (.ok (), after) ∧
        journal.call c = (.ok (), journal.succeeded after c) := by
  cases hcall : journal.registry.call c with
  | mk answer after =>
    cases answer with
    | ok _ => exact .inr ⟨after, rfl, by rw [call, hcall]⟩
    | error e =>
      rw [call, hcall, eq_of_call_eq_error hcall]
      exact .inl ⟨e, rfl⟩

omit [Std.LawfulEqOrd κ] [DecidableEq κ] in
theorem call_of_error {journal : Journal κ} {c : Call κ} {e : Error}
    (h : (journal.call c).1 = .error e) : (journal.call c).2 = journal := by
  rcases journal.call_cases c with ⟨_, hcall⟩ | ⟨after, _, hcall⟩
  · rw [hcall]
  · rw [hcall] at h
    cases h

namespace Permanent
variable {journal : Journal κ}

omit [Std.TransOrd κ] [Std.LawfulEqOrd κ] [DecidableEq κ] in
theorem begin (registry : Registry κ) : Permanent ⟨registry, registry, []⟩ where
  granted := by
    intro entry hentry
    cases hentry
  others := fun _ _ => rfl

theorem register (h : journal.Permanent) (hnext : journal.registry.register kind shape = .ok next) :
    Permanent ⟨next, journal.start, journal.granted ++ [(kind, shape)]⟩ where
  granted := by
    intro entry hentry
    rcases List.mem_append.1 hentry with hold | hnew
    · exact resolve_register_of_bound (h.granted entry hold) hnext
    · rw [List.mem_singleton.1 hnew, resolve_register hnext, if_pos rfl]
  others := by
    intro other hother
    rw [List.map_append, List.mem_append, not_or] at hother
    have hne : other ≠ kind := fun heq => hother.2 (by simp [heq])
    rw [resolve_register hnext, if_neg hne]
    exact h.others other hother.1

theorem bootstrap {entries : List (κ × Shape)} (h : ofShapes entries = .ok next) :
    Permanent ⟨next, ∅, entries⟩ where
  granted := fun entry hentry => (ofShapes_eq_ok_iff.1 h entry.1 entry.2).2 hentry
  others := by
    intro kind hkind
    rw [resolve_empty]
    refine resolve_eq_error fun shape hshape => hkind ?_
    exact List.mem_map.2 ⟨_, (ofShapes_eq_ok_iff.1 h kind shape).1 hshape, rfl⟩

theorem call (h : journal.Permanent) (c : Call κ) : (journal.call c).2.Permanent := by
  rcases journal.call_cases c with ⟨_, hcall⟩ | ⟨after, hafter, hcall⟩
  · rw [hcall]
    exact h
  · rw [hcall]
    cases c with
    | register kind shape => exact h.register (answered_eq_ok_iff.1 hafter)
    | bootstrap entries => exact bootstrap (answered_eq_ok_iff.1 hafter)
    | restore snapshot =>
      cases hafter
      exact begin snapshot
    | clear =>
      cases hafter
      exact begin ∅

theorem run (calls : List (Call κ)) : (run calls).Permanent :=
  List.foldlRecOn calls _ (begin ∅) fun _ h c _ => h.call c

omit [Std.TransOrd κ] [Std.LawfulEqOrd κ] in
/-- The first registration of a kind counts. -/
theorem resolve_eq (h : journal.Permanent) (kind : κ) :
    journal.registry.resolve kind = match journal.granted.lookup kind with
      | some shape => .ok shape
      | none => journal.start.resolve kind := by
  cases hlookup : journal.granted.lookup kind with
  | some shape =>
    obtain ⟨before, after, heq, _⟩ := List.lookup_eq_some_iff.1 hlookup
    exact h.granted (kind, shape) (by simp [heq])
  | none =>
    refine h.others kind fun hmem => ?_
    obtain ⟨entry, hentry, rfl⟩ := List.mem_map.1 hmem
    simpa using List.lookup_eq_none_iff.1 hlookup entry hentry

end Permanent

/-- Further registrations, granted or refused, leave a kind that is bound as it is. -/
theorem resolve_of_registrations {journal : Journal κ}
    (hbound : journal.registry.resolve kind = .ok shape) (entries : List (κ × Shape)) :
    ((entries.map fun e => Call.register e.1 e.2).foldl (fun journal c => (journal.call c).2)
      journal).registry.resolve kind = .ok shape := by
  induction entries generalizing journal with
  | nil => exact hbound
  | cons entry rest ih =>
    refine ih ?_
    change (journal.call (.register entry.1 entry.2)).2.registry.resolve kind = .ok shape
    rcases journal.call_cases (.register entry.1 entry.2) with ⟨_, hcall⟩ | ⟨after, hafter, hcall⟩
    · rw [hcall]
      exact hbound
    · rw [hcall]
      exact resolve_register_of_bound hbound (answered_eq_ok_iff.1 hafter)

end Journal

theorem kinds_are_bound_once :
    (∀ calls : List (Call κ), let journal := Journal.run calls
      (∀ kind shape, (∃ next, journal.registry.register kind shape = .ok next) ↔
        journal.registry.resolve kind = .error (.unknownTransactionType (name kind)) ∨
          journal.registry.resolve kind = .ok shape) ∧
      (∀ c e, (journal.call c).1 = .error e → (journal.call c).2 = journal) ∧
      (∀ kind, journal.registry.resolve kind = match journal.granted.lookup kind with
        | some shape => .ok shape
        | none => journal.start.resolve kind) ∧
      ∀ kind shape, journal.registry.resolve kind = .ok shape →
        ∀ entries : List (κ × Shape),
          (Journal.run (calls ++ entries.map fun e => .register e.1 e.2)).registry.resolve kind =
            .ok shape) ∧
    ∀ entries : List (κ × Shape),
      ((∃ registry, ofShapes entries = .ok registry) ↔ Consistent entries) ∧
      (∀ registry, ofShapes entries = .ok registry → registry.Binds entries ∧
        ∀ others : List (κ × Shape), (∀ e, e ∈ others ↔ e ∈ entries) →
          ofShapes others = .ok registry) ∧
      ∀ e, ofShapes entries = .error e ↔ FirstConflict entries e := by
  constructor
  · intro calls
    refine ⟨fun _ _ => exists_register_iff, fun _ _ => Journal.call_of_error,
      (Journal.Permanent.run calls).resolve_eq, fun kind shape hbound entries => ?_⟩
    rw [Journal.run, List.foldl_append]
    exact Journal.resolve_of_registrations hbound entries
  · intro entries
    refine ⟨exists_ofShapes_iff, fun registry hok => ?_, fun _ => ofShapes_eq_error_iff⟩
    have hbinds := ofShapes_eq_ok_iff.1 hok
    refine ⟨hbinds, fun others hsame => ofShapes_eq_ok_iff.2 fun kind shape => ?_⟩
    exact (hbinds kind shape).trans (hsame _).symm

section Instance
open PriceOracle (Kind)

def ping : Shape := ⟨"PingPayload", ["seq"]⟩

def pong : Shape := ⟨"PongPayload", ["seq", "echo"]⟩

/-- The snapshot is older than the layouts that it replaces. -/
def someCalls : List (Call Kind) :=
  [.register .observation ping, .register .observation pong, .clear, .register .observation pong,
    .register .estimate pong, .restore ⟨.ofList [(.observation, ping)]⟩,
    .register .observation pong, .register .reset pong, .register .reset ping]

/-- The third entry repeats the first, the fourth contradicts the second, the last the first. -/
def someShapes : List (Kind × Shape) :=
  [(.observation, ping), (.estimate, ping), (.observation, ping), (.estimate, pong),
    (.observation, pong)]

theorem kinds_are_bound_once_after_restore :
    (Journal.run someCalls).granted = [(.reset, pong)] ∧
      (Journal.run someCalls).registry.resolve .reset = .ok pong ∧
      (Journal.run someCalls).registry.resolve .observation = .ok ping ∧
      (Journal.run someCalls).registry.resolve .estimate =
        .error (.unknownTransactionType "estimate") ∧
      ofShapes someShapes = .error (.duplicateRegistration "estimate" "PingPayload" "PongPayload") ∧
      ∃ registry, ofShapes (someShapes.take 3) = .ok registry ∧
        ofShapes [(.estimate, ping), (.observation, ping)] = .ok registry := by
  obtain ⟨hruns, hlists⟩ := kinds_are_bound_once (κ := Kind)
  have hgranted : (Journal.run someCalls).granted = [(.reset, pong)] := by decide +kernel
  have hstart : (Journal.run someCalls).start = ⟨.ofList [(.observation, ping)]⟩ := by
    decide +kernel
  obtain ⟨-, -, hresolve, -⟩ := hruns someCalls
  rw [hgranted, hstart] at hresolve
  refine ⟨hgranted, hresolve .reset, hresolve .observation, hresolve .estimate, ?_, ?_⟩
  · obtain ⟨-, -, hconflict⟩ := hlists someShapes
    have hfirst : FirstConflict (someShapes.take 3 ++ (.estimate, pong) :: someShapes.drop 4)
        (.duplicateRegistration (name Kind.estimate) ping.name pong.name) :=
      .intro _ (by decide) (by decide) (by decide)
    exact (hconflict _).2 hfirst
  · obtain ⟨hexists, hok, -⟩ := hlists (someShapes.take 3)
    obtain ⟨registry, hregistry⟩ := hexists.2 (by decide)
    refine ⟨registry, hregistry, (hok registry hregistry).2 _ fun e => ?_⟩
    simp only [someShapes, List.take, List.mem_cons, List.not_mem_nil]
    tauto

end Instance

end QuorumRounds.Registry
