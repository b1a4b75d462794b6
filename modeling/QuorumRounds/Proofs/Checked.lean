import QuorumRounds.Overflow

/-! # Opening computations that may overflow

A checked computation that is a sequence of steps gives a result exactly when the first step gives
one and the rest gives the result from there. So what every step keeps, a run of steps keeps
(`holds_of_foldlM`).

Two computations go the same way (`Both R`) when both fail alike, by overflowing in the same
operation or by answering with the same error, or both give results, which are related.

The successor of a word is a word unless it is the greatest one (`Word.exists_succ`). -/

namespace QuorumRounds.Checked
set_option autoImplicit false

variable {α β : Type}

@[simp] theorem ok_bind (a : α) (f : α → Checked β) : (Except.ok a : Checked α) >>= f = f a := rfl

@[simp] theorem pure_eq_ok (a : α) : (pure a : Checked α) = .ok a := rfl

theorem bind_eq_ok_iff {x : Checked α} {f : α → Checked β} {b : β} :
    x >>= f = .ok b ↔ ∃ a, x = .ok a ∧ f a = .ok b := by
  cases x with
  | error e =>
    constructor
    · intro h
      cases h
    · rintro ⟨a, h, _⟩
      cases h
  | ok a =>
    constructor
    · intro h
      exact ⟨a, rfl, h⟩
    · rintro ⟨a', h, hf⟩
      cases h
      exact hf

theorem map_eq_ok_iff {x : Checked α} {f : α → β} {b : β} :
    x.map f = .ok b ↔ ∃ a, x = .ok a ∧ f a = b := by
  cases x with
  | error e =>
    constructor
    · intro h
      cases h
    · rintro ⟨a, h, _⟩
      cases h
  | ok a =>
    constructor
    · intro h
      exact ⟨a, rfl, Except.ok.inj h⟩
    · rintro ⟨a', h, rfl⟩
      cases h
      rfl

theorem eq_ok_of_toOption {ε : Type} {x : Except ε α} {a : α} (h : x.toOption = some a) :
    x = .ok a := by
  cases x with
  | error e => cases h
  | ok b =>
    cases h
    rfl

/-- What is seen after a run tells that there is something to run. -/
theorem exists_of_map {γ : Type} {x : Option α} {run : α → Checked β} {see : β → γ} {seen : γ}
    (h : x.map (fun a => (run a).map see) = some (.ok seen)) :
    ∃ a b, x = some a ∧ run a = .ok b ∧ see b = seen := by
  obtain ⟨a, ha, hrun⟩ := Option.map_eq_some_iff.1 h
  obtain ⟨b, hb, hseen⟩ := map_eq_ok_iff.1 hrun
  exact ⟨a, b, ha, hb, hseen⟩

theorem holds_of_foldlM (holds : α → Prop) {step : α → β → Checked α}
    (hstep : ∀ a b next, holds a → step a b = .ok next → holds next) {items : List β}
    {first last : α} (hfirst : holds first) (hrun : items.foldlM step first = .ok last) :
    holds last := by
  induction items generalizing first with
  | nil =>
    cases hrun
    exact hfirst
  | cons item rest ih =>
    rw [List.foldlM_cons] at hrun
    obtain ⟨next, hnext, hrest⟩ := bind_eq_ok_iff.1 hrun
    exact ih (hstep first item next hfirst hnext) hrest

/-! ## Two computations -/

inductive Both {ε : Type} (R : α → β → Prop) : Except ε α → Except ε β → Prop where
  | ok {a : α} {b : β} (h : R a b) : Both R (.ok a) (.ok b)
  | error (e : ε) : Both R (.error e) (.error e)

/-- The same answer, and related states after it. -/
def SameAnswer {γ δ : Type} (R : γ → δ → Prop) (x : α × γ) (y : α × δ) : Prop :=
  x.1 = y.1 ∧ R x.2 y.2

namespace Both
variable {ε γ δ : Type} {R : α → β → Prop} {x : Except ε α} {y : Except ε β}

theorem mono {S : α → β → Prop} (h : Both R x y) (himp : ∀ a b, R a b → S a b) : Both S x y := by
  cases h with
  | ok h => exact .ok (himp _ _ h)
  | error e => exact .error e

theorem bind {S : γ → δ → Prop} {f : α → Except ε γ} {g : β → Except ε δ} (h : Both R x y)
    (hnext : ∀ a b, R a b → Both S (f a) (g b)) : Both S (x >>= f) (y >>= g) := by
  cases h with
  | ok h => exact hnext _ _ h
  | error e => exact .error e

theorem map {S : γ → δ → Prop} {f : α → γ} {g : β → δ} (h : Both R x y)
    (hnext : ∀ a b, R a b → S (f a) (g b)) : Both S (x.map f) (y.map g) := by
  cases h with
  | ok h => exact .ok (hnext _ _ h)
  | error e => exact .error e

theorem symm (h : Both R x y) : Both (fun b a => R a b) y x := by
  cases h with
  | ok h => exact .ok h
  | error e => exact .error e

theorem trans {S : β → γ → Prop} {z : Except ε γ} (hxy : Both R x y) (hyz : Both S y z) :
    Both (fun a c => ∃ b, R a b ∧ S b c) x z := by
  cases hxy with
  | ok hab =>
    cases hyz with
    | ok hbc => exact .ok ⟨_, hab, hbc⟩
  | error e =>
    cases hyz with
    | error e => exact .error e

theorem of_eq {S : α → α → Prop} {x y : Except ε α} (h : x = y) (hrefl : ∀ a, x = .ok a → S a a) :
    Both S x y := by
  subst h
  cases x with
  | ok a => exact .ok (hrefl a rfl)
  | error e => exact .error e

/-- The related results are those of the computations. -/
theorem with_eq (h : Both R x y) : Both (fun a b => R a b ∧ x = .ok a ∧ y = .ok b) x y := by
  cases h with
  | ok h => exact .ok ⟨h, rfl, rfl⟩
  | error e => exact .error e

theorem eq_of_both {x y : Except ε α} (h : Both (· = ·) x y) : x = y := by
  cases h with
  | ok h => rw [h]
  | error e => rfl

/-- Where one state is a function of the other, so is the whole result. -/
theorem eq_map_of_sameAnswer {f : γ → δ} {x : Except ε (α × γ)} {y : Except ε (α × δ)}
    (h : Both (SameAnswer fun before after => after = f before) x y) :
    y = x.map fun result => (result.1, f result.2) := by
  cases h with
  | ok h =>
    obtain ⟨hanswer, hstate⟩ := h
    exact congrArg Except.ok (Prod.ext hanswer.symm hstate)
  | error e => rfl

theorem eq_ok {b : α} {S : α → β → Prop} (h : Both S x y) (hx : x = .ok b) :
    ∃ c, y = .ok c ∧ S b c := by
  cases h with
  | ok h =>
    cases hx
    exact ⟨_, rfl, h⟩
  | error e => cases hx

end Both

end QuorumRounds.Checked

/-! ## The next word -/

namespace QuorumRounds

theorem Word.succ_eq_error {a : UInt64} (h : a.toNat + 1 = UInt64.size) :
    Word.succ a = .error .add := by
  have hone : (1 : UInt64).toNat = 1 := rfl
  rw [Word.succ, Word.add, hone, if_neg (by omega)]

theorem Word.eq_add_of_succ {a : UInt64} {e : Overflow} (h : Word.succ a = .error e) :
    e = .add := by
  rw [Word.succ, Word.add] at h
  split at h
  · cases h
  · cases h
    rfl

theorem Word.ne_of_succ {a b : UInt64} (h : Word.succ a = .ok b) : b ≠ a := by
  rintro rfl
  have := Word.succ_eq_ok_iff.1 h
  omega

theorem Word.exists_succ {a : UInt64} (h : a.toNat + 1 < UInt64.size) :
    ∃ b, Word.succ a = .ok b := by
  have hone : (1 : UInt64).toNat = 1 := rfl
  rw [Word.succ, Word.add, hone, if_pos h]
  exact ⟨_, rfl⟩

end QuorumRounds
