/-! # 64-bit binary floating point

A `Binary64` is its 64 bits: a sign, 11 exponent bits and 52 fraction bits. Bits are what is written
and read, so two numbers are the same *object* when their bits are.

* `Binary64.equals`: equality as numbers. A NaN equals nothing, itself included, and the two zeros
  are equal. It is symmetric and transitive (`equals_comm`, `equals_trans`), and reflexive except at
  the NaNs (`equals_self`).
* `Binary64.mean`: sums and divides with the rounding of the format.
-/

namespace QuorumRounds
set_option autoImplicit false

/-- A number by its bits. -/
structure Binary64 where
  bits : UInt64
deriving DecidableEq, Repr

namespace Binary64

/-- The value of the sign bit, the 63rd power of two. -/
def signPlace : Nat := 0x8000000000000000

/-- The value of the lowest exponent bit, the 52nd power of two. -/
def exponentPlace : Nat := 0x10000000000000

/-- The bits without the sign. -/
def magnitude (x : Binary64) : Nat := x.bits.toNat % signPlace

/-- Whether the sign bit is set. -/
def isNegative (x : Binary64) : Bool := decide (signPlace ≤ x.bits.toNat)

/-- The 11 bits below the sign. -/
def exponentBits (x : Binary64) : Nat := x.magnitude / exponentPlace

/-- The lowest 52 bits. -/
def fractionBits (x : Binary64) : Nat := x.magnitude % exponentPlace

/-- One of the two zeros. -/
def isZero (x : Binary64) : Bool := x.magnitude == 0

def isInfinite (x : Binary64) : Bool := x.exponentBits == 2047 && x.fractionBits == 0

/-- Not a number: there are many of them. -/
def isNaN (x : Binary64) : Bool := x.exponentBits == 2047 && x.fractionBits != 0

/-- Equality as numbers. -/
def equals (x y : Binary64) : Bool :=
  !x.isNaN && !y.isNaN && (x == y || x.isZero && y.isZero)

theorem equals_self (x : Binary64) : x.equals x = !x.isNaN := by
  simp [equals]

theorem equals_comm (x y : Binary64) : x.equals y = y.equals x := by
  unfold equals
  rw [Bool.and_comm (!x.isNaN), Bool.and_comm x.isZero, BEq.comm (a := x)]

theorem equals_trans {x y z : Binary64} (hxy : x.equals y = true) (hyz : y.equals z = true) :
    x.equals z = true := by
  simp only [equals, Bool.and_eq_true, Bool.or_eq_true, beq_iff_eq] at hxy hyz ⊢
  obtain ⟨⟨hx, _⟩, hxy⟩ := hxy
  obtain ⟨⟨_, hz⟩, hyz⟩ := hyz
  refine ⟨⟨hx, hz⟩, ?_⟩
  rcases hxy with rfl | ⟨hx0, hy0⟩
  · exact hyz
  · rcases hyz with rfl | ⟨_, hz0⟩
    · exact .inr ⟨hx0, hy0⟩
    · exact .inr ⟨hx0, hz0⟩

/-! ## Rounded arithmetic -/

/-- The bits of a native number. -/
def ofFloat (x : Float) : Binary64 := ⟨x.toBits⟩

/-- The native number with these bits. -/
def toFloat (x : Binary64) : Float := Float.ofBits x.bits

/-- The nearest number, ties to the even one. -/
def ofUInt64 (n : UInt64) : Binary64 := ofFloat n.toFloat

/-- Rounding to nearest does not look at the sign, so the absolute value is rounded. -/
def ofInt64 (n : Int64) : Binary64 :=
  let rounded := (UInt64.ofNat n.toInt.natAbs).toFloat
  ofFloat (if n < 0 then -rounded else rounded)

/-- The sum from left to right. It starts at negative zero, the one number that leaves every
number unchanged, so only negative zeros sum to negative zero. -/
def sum (xs : List Binary64) : Float := xs.foldl (fun total x => total + x.toFloat) (-0.0)

/-- The arithmetic mean, or `none` of no numbers. -/
def mean : List Binary64 → Option Binary64
  | [] => none
  | x :: xs => some (ofFloat (sum (x :: xs) / (UInt64.ofNat (xs.length + 1)).toFloat))

end Binary64

end QuorumRounds
