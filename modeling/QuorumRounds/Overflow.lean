/-! # Checked arithmetic on 64-bit words

Heights, period numbers and confirmation counts are 64-bit words. A result that does not fit is an
`Overflow`: it is no answer that a caller handles, it ends the run, and the state in which it
happened is gone. So a computation that may overflow is a `Checked` one, and a step whose failure is
an ordinary answer returns that answer *inside* `Checked`.

* `Word.add`, `Word.succ`, `Word.double`: the only operations on words that can overflow.
* `Word.reach`, `Word.advance`: sums that are made with them.
* `Word.add_eq_ok_iff`, `Word.double_eq_ok_iff`: they succeed exactly when the result fits.
-/

namespace QuorumRounds
set_option autoImplicit false

/-- The operation whose result did not fit. -/
inductive Overflow where
  | multiply
  | add
  | duration
deriving DecidableEq, Repr

/-- The text in which the run ends. -/
def Overflow.message : Overflow → String
  | .multiply => "attempt to multiply with overflow"
  | .add => "attempt to add with overflow"
  | .duration => "overflow when adding durations"

/-- What may overflow. -/
abbrev Checked := Except Overflow

namespace Word

/-- The sum, if it fits. -/
def add (a b : UInt64) : Checked UInt64 :=
  if a.toNat + b.toNat < UInt64.size then .ok (a + b) else .error .add

/-- The next word. -/
def succ (a : UInt64) : Checked UInt64 := add a 1

/-- Twice the word. -/
def double (a : UInt64) : Checked UInt64 :=
  if 2 * a.toNat < UInt64.size then .ok (2 * a) else .error .multiply

/-- A difference below zero is no word. -/
def sub? (a b : UInt64) : Option UInt64 := if b ≤ a then some (a - b) else none

/-- What can be reached with so many votes, and those of everyone who has not been heard. More than
everyone cannot have been heard. -/
def reach (votes heard everyone : Nat) : Checked UInt64 :=
  if heard ≤ everyone ∧ votes + (everyone - heard) < UInt64.size then
    .ok (UInt64.ofNat (votes + (everyone - heard)))
  else .error .add

/-- Counts on one by one. -/
def advance (start : UInt64) : Nat → Checked UInt64
  | 0 => .ok start
  | n + 1 => do
    let reached ← advance start n
    succ reached

theorem toNat_lt_size (a : UInt64) : a.toNat < UInt64.size := a.toNat_lt

theorem add_eq_ok_iff {a b c : UInt64} : add a b = .ok c ↔ c.toNat = a.toNat + b.toNat := by
  have hc := toNat_lt_size c
  unfold add
  split
  case isTrue h =>
    rw [Except.ok.injEq, ← UInt64.toNat_inj, UInt64.toNat_add, Nat.mod_eq_of_lt h]
    exact eq_comm
  case isFalse h =>
    simp only [reduceCtorEq, false_iff]
    omega

theorem succ_eq_ok_iff {a b : UInt64} : succ a = .ok b ↔ b.toNat = a.toNat + 1 :=
  add_eq_ok_iff

theorem double_eq_ok_iff {a b : UInt64} : double a = .ok b ↔ b.toNat = 2 * a.toNat := by
  have hb := toNat_lt_size b
  unfold double
  split
  case isTrue h =>
    rw [Except.ok.injEq, ← UInt64.toNat_inj, UInt64.toNat_mul]
    have h2 : (2 : UInt64).toNat = 2 := rfl
    rw [h2, Nat.mod_eq_of_lt h]
    exact eq_comm
  case isFalse h =>
    simp only [reduceCtorEq, false_iff]
    omega

end Word

end QuorumRounds
