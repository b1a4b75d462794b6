import QuorumRounds.Wire.Basic

/-! # Readers and the forms they read

A stretch of bytes spells a value (`Spells`) when the reader takes exactly the stretch, whatever
follows it, and returns the value, and when it runs out of input on every stretch that is cut short.

A form relates stretches of bytes and values. A reader reads a form (`Reads`) when every stretch
spells the values that the form relates it to, and whatever the reader takes from any input is
related to what it returns. A value may be related to many stretches: there are readers that accept
more than what is written.

Forms are put together as readers are. A reader that decides from what it has read how to read on
(the number of items, the index of a choice) is a `Reads.bind`. -/

namespace QuorumRounds
set_option autoImplicit false

variable {α β : Type}

/-! ## Opening readers -/

namespace Reader
variable {r : Reader α} {input rest : List UInt8}

theorem bind_eq_ok_iff {f : α → Reader β} {b : β} :
    (r >>= f).run input = .ok (b, rest) ↔
      ∃ a middle, r.run input = .ok (a, middle) ∧ (f a).run middle = .ok (b, rest) := by
  rw [StateT.run_bind]
  cases r.run input with
  | error e =>
    constructor
    · intro h
      cases h
    · rintro ⟨a, middle, h, _⟩
      cases h
  | ok out =>
    constructor
    · intro h
      exact ⟨out.1, out.2, rfl, h⟩
    · rintro ⟨a, middle, h, hf⟩
      cases h
      exact hf

theorem map_eq_ok_iff {f : α → β} {b : β} :
    (f <$> r).run input = .ok (b, rest) ↔ ∃ a, r.run input = .ok (a, rest) ∧ f a = b := by
  rw [map_eq_pure_bind, bind_eq_ok_iff]
  constructor
  · rintro ⟨a, middle, h, hpure⟩
    cases hpure
    exact ⟨a, h, rfl⟩
  · rintro ⟨a, h, rfl⟩
    exact ⟨a, rest, h, rfl⟩

theorem pure_eq_ok_iff {a b : α} :
    (pure a : Reader α).run input = .ok (b, rest) ↔ b = a ∧ input = rest := by
  constructor
  · intro h
    cases h
    exact ⟨rfl, rfl⟩
  · rintro ⟨rfl, rfl⟩
    rfl

theorem throw_ne_ok {e : ReadError} {a : α} :
    (throw e : Reader α).run input ≠ .ok (a, rest) := by
  intro h
  cases h

end Reader

/-! ## Stretches that spell a value -/

structure Spells (part : List UInt8) (read : Reader α) (a : α) : Prop where
  whole (rest : List UInt8) : read.run (part ++ rest) = .ok (a, rest)
  cut {short : List UInt8} (hstart : short <+: part) (hne : short ≠ part) :
    read.run short = .error .endOfInput

namespace Spells
variable {part tail : List UInt8} {r : Reader α} {a : α}

theorem nil (h : ∀ rest, r.run rest = .ok (a, rest)) : Spells [] r a where
  whole := h
  cut hstart hne := absurd (List.prefix_nil.1 hstart) hne

theorem bind {f : α → Reader β} {b : β} (h : Spells part r a) (hf : Spells tail (f a) b) :
    Spells (part ++ tail) (r >>= f) b where
  whole rest := by
    rw [List.append_assoc, StateT.run_bind, h.whole]
    exact hf.whole rest
  cut {short} hstart hne := by
    -- the input ends either behind the first stretch or inside it
    rcases List.prefix_or_prefix_of_prefix (List.prefix_append part tail) hstart with hpart | hshort
    · obtain ⟨more, rfl⟩ := hpart
      have hmore : more <+: tail := (List.prefix_append_right_inj part).1 hstart
      rw [StateT.run_bind, h.whole]
      exact hf.cut hmore fun (heq : more = tail) => hne (by rw [heq])
    · by_cases heq : short = part
      · subst heq
        have hnil : [] ≠ tail := by
          rintro rfl
          exact hne (List.append_nil short).symm
        have hread := h.whole []
        rw [List.append_nil] at hread
        rw [StateT.run_bind, hread]
        exact hf.cut List.nil_prefix hnil
      · rw [StateT.run_bind, h.cut hshort heq]
        rfl

theorem map (f : α → β) (h : Spells part r a) : Spells part (f <$> r) (f a) := by
  have hbind := h.bind (f := fun a => pure (f a)) (.nil fun _ => rfl)
  rw [List.append_nil] at hbind
  rw [map_eq_pure_bind]
  exact hbind

theorem value_unique {b : α} (ha : Spells part r a) (hb : Spells part r b) : a = b := by
  have h := (ha.whole []).symm.trans (hb.whole [])
  cases h
  rfl

end Spells

/-! ## Forms -/

structure Reads (read : Reader α) (W : List UInt8 → α → Prop) : Prop where
  spells {part : List UInt8} {a : α} (h : W part a) : Spells part read a
  exists_part {input rest : List UInt8} {a : α} (h : read.run input = .ok (a, rest)) :
    ∃ part, W part a ∧ input = part ++ rest

namespace Reads
variable {r : Reader α} {W : List UInt8 → α → Prop}

theorem of_iff {W' : List UInt8 → α → Prop} (h : Reads r W) (hiff : ∀ part a, W part a ↔ W' part a) :
    Reads r W' := by
  obtain rfl : W = W' := funext fun part => funext fun a => propext (hiff part a)
  exact h

theorem pure (a : α) : Reads (pure a) fun part b => part = [] ∧ b = a where
  spells := by
    rintro part b ⟨rfl, rfl⟩
    exact .nil fun _ => rfl
  exists_part {input rest b} h := by
    obtain ⟨rfl, rfl⟩ := Reader.pure_eq_ok_iff.1 h
    exact ⟨[], ⟨rfl, rfl⟩, rfl⟩

theorem throw (e : ReadError) : Reads (throw e : Reader α) fun _ _ => False where
  spells h := h.elim
  exists_part h := absurd h Reader.throw_ne_ok

theorem map (f : α → β) (h : Reads r W) : Reads (f <$> r) fun part b => ∃ a, W part a ∧ f a = b where
  spells := by
    rintro part b ⟨a, ha, rfl⟩
    exact (h.spells ha).map f
  exists_part {input rest b} hread := by
    obtain ⟨a, hpart, rfl⟩ := Reader.map_eq_ok_iff.1 hread
    obtain ⟨part, ha, rfl⟩ := h.exists_part hpart
    exact ⟨part, ⟨a, ha, rfl⟩, rfl⟩

theorem bind {f : α → Reader β} {V : α → List UInt8 → β → Prop} (h : Reads r W)
    (hf : ∀ a, Reads (f a) (V a)) :
    Reads (r >>= f) fun part b => ∃ a first second, W first a ∧ V a second b ∧
      part = first ++ second where
  spells := by
    rintro part b ⟨a, first, second, ha, hb, rfl⟩
    exact (h.spells ha).bind ((hf a).spells hb)
  exists_part {input rest b} hread := by
    obtain ⟨a, middle, hfirst, hsecond⟩ := Reader.bind_eq_ok_iff.1 hread
    obtain ⟨first, ha, rfl⟩ := h.exists_part hfirst
    obtain ⟨second, hb, rfl⟩ := (hf a).exists_part hsecond
    exact ⟨first ++ second, ⟨a, first, second, ha, hb, rfl⟩, (List.append_assoc _ _ _).symm⟩

/-- A record of two fields. -/
theorem record {γ : Type} {s : Reader β} {V : List UInt8 → β → Prop} (h : Reads r W) (hs : Reads s V)
    (f : α → β → γ) :
    Reads (do let a ← r; let b ← s; Pure.pure (f a b)) fun part c =>
      ∃ a b first second, W first a ∧ V second b ∧ part = first ++ second ∧ f a b = c := by
  have hbind := h.bind fun a => hs.map (f a)
  simp only [map_eq_pure_bind] at hbind
  refine hbind.of_iff fun part c => ?_
  constructor
  · rintro ⟨a, first, second, ha, ⟨b, hb, rfl⟩, rfl⟩
    exact ⟨a, b, first, second, ha, hb, rfl, rfl⟩
  · rintro ⟨a, b, first, second, ha, hb, rfl, rfl⟩
    exact ⟨a, first, second, ha, ⟨b, hb, rfl⟩, rfl⟩

end Reads

/-! ## Decoding -/

namespace Wire
variable [Wire α] {part bytes : List UInt8} {a : α}

theorem decode_eq_ok_iff :
    decode α bytes = .ok a ↔ ∃ rest, (Wire.read : Reader α).run bytes = .ok (a, rest) := by
  unfold decode
  cases (Wire.read : Reader α).run bytes with
  | error e => simp
  | ok out =>
    obtain ⟨b, rest⟩ := out
    simp

theorem decode_append (h : Spells part Wire.read a) (rest : List UInt8) :
    decode α (part ++ rest) = .ok a :=
  decode_eq_ok_iff.2 ⟨rest, h.whole rest⟩

theorem decode_cut (h : Spells part Wire.read a) {short : List UInt8} (hstart : short <+: part)
    (hne : short ≠ part) : decode α short = .error (.encoding .endOfInput) := by
  unfold decode
  rw [h.cut hstart hne]

theorem exists_part_of_decode {W : List UInt8 → α → Prop} (h : Reads Wire.read W)
    (hdecode : decode α bytes = .ok a) :
    ∃ part rest, W part a ∧ bytes = part ++ rest ∧ Wire.read.run bytes = .ok (a, rest) := by
  obtain ⟨rest, hread⟩ := decode_eq_ok_iff.1 hdecode
  obtain ⟨part, ha, hbytes⟩ := h.exists_part hread
  exact ⟨part, rest, ha, hbytes, hread⟩

end Wire

end QuorumRounds
