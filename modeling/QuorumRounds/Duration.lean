import QuorumRounds.Overflow

/-! # Spans of time

A `Duration` is a whole number of nanoseconds that is written as seconds, a 64-bit word, and a rest
of less than a second. Block timestamps are durations since a fixed moment. -/

namespace QuorumRounds
set_option autoImplicit false

/-- A number of nanoseconds whose seconds fit into a word. -/
structure Duration where
  nanos : Nat
  nanos_lt : nanos < UInt64.size * 1000000000
deriving DecidableEq, Repr

namespace Duration

/-- Nanoseconds of a second or more carry into the seconds, which then may no longer fit. -/
def ofParts? (seconds : UInt64) (nanos : UInt32) : Option Duration :=
  if h : seconds.toNat * 1000000000 + nanos.toNat < UInt64.size * 1000000000 then
    some ⟨seconds.toNat * 1000000000 + nanos.toNat, h⟩
  else none

/-- Whole seconds. -/
def ofSeconds (seconds : UInt64) : Duration :=
  ⟨seconds.toNat * 1000000000, by have := Word.toNat_lt_size seconds; omega⟩

/-- The whole seconds of the duration. -/
def seconds (d : Duration) : UInt64 := UInt64.ofNat (d.nanos / 1000000000)

/-- The nanoseconds beyond the whole seconds. -/
def subsecond (d : Duration) : UInt32 := UInt32.ofNat (d.nanos % 1000000000)

/-- The sum, if its seconds fit into a word. -/
def add (a b : Duration) : Checked Duration :=
  if h : a.nanos + b.nanos < UInt64.size * 1000000000 then .ok ⟨a.nanos + b.nanos, h⟩
  else .error .duration

instance : LE Duration := ⟨fun a b => a.nanos ≤ b.nanos⟩
instance : LT Duration := ⟨fun a b => a.nanos < b.nanos⟩
instance (a b : Duration) : Decidable (a ≤ b) := inferInstanceAs (Decidable (a.nanos ≤ b.nanos))
instance (a b : Duration) : Decidable (a < b) := inferInstanceAs (Decidable (a.nanos < b.nanos))

@[ext] theorem ext {a b : Duration} (h : a.nanos = b.nanos) : a = b := by
  cases a; cases b; simp_all

theorem seconds_toNat (d : Duration) : d.seconds.toNat = d.nanos / 1000000000 := by
  have h := d.nanos_lt
  have hs : d.nanos / 1000000000 < UInt64.size := by omega
  rw [seconds, UInt64.toNat_ofNat_of_lt' hs]

theorem subsecond_toNat (d : Duration) : d.subsecond.toNat = d.nanos % 1000000000 := by
  have hs : d.nanos % 1000000000 < UInt32.size := by
    have := Nat.mod_lt d.nanos (show 0 < 1000000000 by decide)
    simp only [UInt32.size]; omega
  rw [subsecond, UInt32.toNat_ofNat_of_lt' hs]

theorem ofParts?_eq_some_iff {seconds : UInt64} {nanos : UInt32} {d : Duration} :
    ofParts? seconds nanos = some d ↔ d.nanos = seconds.toNat * 1000000000 + nanos.toNat := by
  have hd := d.nanos_lt
  unfold ofParts?
  split
  case isTrue h =>
    rw [Option.some.injEq, Duration.ext_iff]
    exact eq_comm
  case isFalse h =>
    simp only [reduceCtorEq, false_iff]
    omega

/-- The written parts of a duration give it back. -/
theorem ofParts?_parts (d : Duration) : ofParts? d.seconds d.subsecond = some d := by
  rw [ofParts?_eq_some_iff, seconds_toNat, subsecond_toNat]
  omega

/-- Only parts with less than a second of nanoseconds are the written ones. -/
theorem parts_eq_iff {seconds : UInt64} {nanos : UInt32} {d : Duration}
    (h : ofParts? seconds nanos = some d) :
    seconds = d.seconds ∧ nanos = d.subsecond ↔ nanos.toNat < 1000000000 := by
  have hnanos := ofParts?_eq_some_iff.1 h
  rw [← UInt64.toNat_inj, ← UInt32.toNat_inj, seconds_toNat, subsecond_toNat]
  omega

theorem add_eq_ok_iff {a b c : Duration} : a.add b = .ok c ↔ c.nanos = a.nanos + b.nanos := by
  have hc := c.nanos_lt
  unfold add
  split
  case isTrue h =>
    rw [Except.ok.injEq, Duration.ext_iff]
    exact eq_comm
  case isFalse h =>
    simp only [reduceCtorEq, false_iff]
    omega

end Duration

end QuorumRounds
