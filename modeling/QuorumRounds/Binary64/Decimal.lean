import QuorumRounds.Binary64.Basic

/-! # The shortest decimal of a floating-point number

A number is written with the fewest significant digits that read back as the same number. Of several
such decimals the nearest is chosen, of two equally near ones the larger in absolute value. The
digits are written out in place, without an exponent, and a whole number has no point.

* `Span`: a positive number and the ends of the interval that rounds to it, exactly, as numerators
  over one denominator. The ends belong to it when the significand is even.
* `Span.shortest`: the search over grids of 1, 2, … 17 digits; on each grid only the two neighbours
  of the number can be the nearest hit.
* `Binary64.display`: the text.
-/

namespace QuorumRounds
set_option autoImplicit false

/-- The number of digits of a positive number; none for zero. -/
def decimalLength (n : Nat) : Nat := if n = 0 then 0 else (Nat.toDigits 10 n).length

/-- A number and the decimals around it that read back as the number. -/
structure Span where
  low : Nat
  value : Nat
  high : Nat
  denominator : Nat
  closed : Bool

namespace Span

/-- Numerators are quarters of a unit in the last place. Below a power of two the numbers lie twice
as close. -/
def ofBinary64 (x : Binary64) : Span :=
  let significand :=
    if x.exponentBits = 0 then x.fractionBits else x.fractionBits + Binary64.exponentPlace
  let exponent := max x.exponentBits 1
  let below := if x.fractionBits = 0 ∧ 1 < x.exponentBits then 1 else 2
  let up := Nat.pow 2 (exponent - 1077)
  { low := (4 * significand - below) * up
    value := 4 * significand * up
    high := (4 * significand + 2) * up
    denominator := Nat.pow 2 (1077 - exponent)
    closed := significand % 2 == 0 }

/-- The position of the first digit: the value lies from `10 ^ (p - 1)` up to below `10 ^ p`. -/
def firstPlace (s : Span) : Int :=
  if s.denominator ≤ s.value then decimalLength (s.value / s.denominator)
  else 1 - decimalLength ((s.denominator - 1) / s.value)

/-- The decimal `c * 10 ^ e`, multiplied by the denominator and by a negative power of ten. -/
def scaled (s : Span) (c : Nat) (e : Int) : Nat := c * Nat.pow 10 e.toNat * s.denominator

/-- The decimal reads back as the number. -/
def contains (s : Span) (c : Nat) (e : Int) : Bool :=
  let x := s.scaled c e
  let ten := Nat.pow 10 (-e).toNat
  if s.closed then s.low * ten ≤ x && x ≤ s.high * ten else s.low * ten < x && x < s.high * ten

/-- The greatest `c` with `c * 10 ^ e` at most the value. -/
def floorAt (s : Span) (e : Int) : Nat := s.value * Nat.pow 10 (-e).toNat / s.scaled 1 e

/-- The point of the grid `10 ^ e` that is nearest to the value and reads back, if any does. -/
def pick (s : Span) (e : Int) : Option Nat :=
  let c := s.floorAt e
  let value := s.value * Nat.pow 10 (-e).toNat
  let isNearer := value - s.scaled c e < s.scaled (c + 1) e - value
  if s.contains c e && (!s.contains (c + 1) e || isNearer) then some c
  else if s.contains (c + 1) e then some (c + 1)
  else none

/-- Digits and exponent. Seventeen digits always suffice. -/
def shortest (s : Span) : Nat × Int :=
  let finest := s.firstPlace - 17
  let grids := (List.range 17).map fun n => s.firstPlace - (n + 1 : Nat)
  (grids.findSome? fun e => (s.pick e).map (·, e)).getD (s.floorAt finest, finest)

end Span

/-- The same decimal without zeros at the end of its digits. -/
def dropTrailingZeros (c : Nat) (e : Int) : Nat × Int :=
  if _h : c ≠ 0 ∧ c % 10 = 0 then dropTrailingZeros (c / 10) (e + 1) else (c, e)
termination_by c
decreasing_by omega

/-- The decimal `c * 10 ^ e`, written out in place. -/
def positional (c : Nat) (e : Int) : String :=
  let digits := Nat.toDigits 10 c
  if 0 ≤ e then String.ofList (digits ++ List.replicate e.toNat '0')
  else
    let places := (-e).toNat
    let padded := List.replicate (places + 1 - digits.length) '0' ++ digits
    let whole := padded.length - places
    String.ofList (padded.take whole ++ '.' :: padded.drop whole)

namespace Binary64

/-- Without its sign. -/
def displayMagnitude (x : Binary64) : String :=
  if x.isInfinite then "inf"
  else if x.isZero then "0"
  else
    let (c, e) := (Span.ofBinary64 x).shortest
    let (c, e) := dropTrailingZeros c e
    positional c e

def display (x : Binary64) : String :=
  if x.isNaN then "NaN"
  else if x.isNegative then "-" ++ x.displayMagnitude
  else x.displayMagnitude

end Binary64

end QuorumRounds
