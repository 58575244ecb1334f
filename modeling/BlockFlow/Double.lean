/-! # Doubles

  A 64-bit binary floating-point number is kept as its bit pattern, so that
  every pattern (signed zeros, infinities, each NaN) survives being stored.

  The key idea of the arithmetic: all finite doubles are whole multiples of
  the unit `2 ^ -1074`.

  - `units` counts how many of them the magnitude of a double holds.
  - `nearest num den` rounds the ratio `num / den` to a magnitude in one
    formula. With `shift` places dropped from the count of units, the pattern
    is `shift * hiddenBit + significand`, for normal and subnormal numbers
    alike, and a significand that rounds up to `2 ^ 53` carries into the
    exponent by itself.
-/

namespace BlockFlow

/-- A double, as its pattern of one sign bit, eleven exponent bits and
    fifty-two fraction bits. -/
structure Double where
  /-- The bit pattern. -/
  bits : UInt64
deriving DecidableEq, Repr, Inhabited

namespace Double

/-! ## Reading the pattern -/

/-- The place of the sign, `2 ^ 63`. -/
def signBit : Nat := 0x8000000000000000

/-- The place of the lowest exponent bit, `2 ^ 52`. The leading bit of a normal
    number has the same place in its significand, and the pattern leaves it out. -/
def hiddenBit : Nat := 0x10000000000000

/-- The sign bit, set also for `-0.0` and for some NaNs. -/
def negative (x : Double) : Bool := decide (signBit ≤ x.bits.toNat)

/-- The pattern without its sign bit. -/
def magnitude (x : Double) : Nat := x.bits.toNat % signBit

/-- The magnitude of the infinities: larger ones are NaNs. -/
def infinity : Nat := 0x7FF * hiddenBit

/-- A double that is neither infinite nor a NaN. -/
def isFinite (x : Double) : Bool := decide (x.magnitude < infinity)

/-- A double that is no number. -/
def isNaN (x : Double) : Bool := decide (infinity < x.magnitude)

/-- A double from its sign and magnitude. -/
def ofMagnitude (negative : Bool) (magnitude : Nat) : Double :=
  ⟨UInt64.ofNat (magnitude + if negative then signBit else 0)⟩

/-- The count of units `2 ^ -1074` that a finite magnitude stands for. -/
def unitsOf (magnitude : Nat) : Nat :=
  if magnitude / hiddenBit = 0 then magnitude % hiddenBit
  else (magnitude % hiddenBit + hiddenBit) * Nat.pow 2 (magnitude / hiddenBit - 1)

/-- Comparison as numbers: the two zeros agree, and a NaN agrees with
    nothing, not even with itself. -/
def agrees (x y : Double) : Bool :=
  !x.isNaN && !y.isNaN && (x == y || (x.magnitude == 0 && y.magnitude == 0))

/-! ## Rounding -/

/-- The quotient `num / den` rounded to the nearest natural number, a half
    to the even neighbour. -/
def roundDiv (num den : Nat) : Nat :=
  if 2 * (num % den) < den then num / den
  else if den < 2 * (num % den) then num / den + 1
  else num / den + num / den % 2

/-- The magnitude nearest to the ratio `num / den`; ratios beyond the finite
    doubles go to `infinity`. -/
def nearest (num den : Nat) : Nat :=
  let scaled := num * Nat.pow 2 1074
  -- Fifty-three bits of the count stay; a count with fewer bits stays whole.
  let shift := (scaled / den).log2 - 52
  -- The leading bit of a normal number adds one to the exponent field.
  min infinity (shift * hiddenBit + roundDiv scaled (den * Nat.pow 2 shift))

/-- The double nearest to an integer. -/
def ofInt (n : Int) : Double := ofMagnitude (decide (n < 0)) (nearest n.natAbs 1)

/-! ## Arithmetic on magnitudes -/

/-- The product of two finite magnitudes. -/
def mul (a b : Nat) : Nat := nearest (unitsOf a * unitsOf b) (Nat.pow 2 2148)

/-- The quotient of two finite magnitudes. -/
def div (a b : Nat) : Nat := nearest (unitsOf a) (unitsOf b)

/-- The magnitude nearest to a power of ten. -/
def tenTo (n : Nat) : Nat := nearest (Nat.pow 10 n) 1

/-- A number times a power of ten, computed with doubles: the number is
    rounded, then scaled, and every step rounds again. The result is mostly,
    but not always, the double nearest to the exact product. A quotient by
    more than `10 ^ 308` takes two steps, and beyond `10 ^ 616` nothing is
    left of it. -/
def scaled (significand : Nat) (exponent : Int) : Nat :=
  let start := nearest significand 1
  let down := (-exponent).toNat
  if significand = 0 then 0
  else if 308 < exponent then infinity
  else if 0 ≤ exponent then mul start (tenTo exponent.toNat)
  else if down ≤ 308 then div start (tenTo down)
  else if down ≤ 616 then div (div start (tenTo 308)) (tenTo (down - 308))
  else 0

/-- The magnitude nearest to `digits * 10 ^ exponent`. The first two cases
    answer for exponents whose power of ten is not worth computing. -/
def ofDecimal (digits : Nat) (exponent : Int) : Nat :=
  if digits = 0 ∨ exponent < -(digits.log2 + 400 : Int) then 0
  else if 400 < exponent then infinity
  else nearest (digits * Nat.pow 10 exponent.toNat) (Nat.pow 10 (-exponent).toNat)

end Double

end BlockFlow
