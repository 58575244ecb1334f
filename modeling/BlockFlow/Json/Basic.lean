import BlockFlow.Numeral

/-! # JSON values

  Complete JSON values, as they are decoded from and written as text.

  - A number is an integer that fits 64 bits, signed or unsigned, or else a
    finite double. The two kinds stay apart: `1` and `1.0` differ.
  - Objects keep the order of their members.
-/

namespace BlockFlow

/-- A number of a JSON text. -/
inductive Number where
  /-- An integer between `-2 ^ 63` and `2 ^ 64 - 1`. -/
  | whole (n : Int) (fits : -0x8000000000000000 ≤ n ∧ n < 0x10000000000000000)
  /-- Any other number, as the nearest double. -/
  | real (x : Double) (finite : x.isFinite = true)
deriving DecidableEq

/-- A JSON value. -/
inductive Json where
  /-- The value `null`. -/
  | null
  /-- A truth value. -/
  | bool (b : Bool)
  /-- A number. -/
  | number (n : Number)
  /-- A string. -/
  | string (s : String)
  /-- A list of values. -/
  | list (items : List Json)
  /-- An object, its members in order. -/
  | object (members : List (String × Json))
deriving Inhabited

namespace Number

/-- How a finite double is written: the fewest digits that name it, all in
    their places with at least one after the point if the first digit stands
    for a power of ten between `-5` and `15`, and with an exponent otherwise. -/
def realNumeral (x : Double) : Numeral :=
  let shortest := Double.shortest .toEven x.magnitude
  if -5 ≤ shortest.lead ∧ shortest.lead ≤ 15 then shortest.positional x.negative 1
  else shortest.scientific x.negative

/-- The numeral of a number. -/
def numeral : Number → Numeral
  | .whole n _ => ⟨decide (n < 0), n.natAbs, 0, none⟩
  | .real x _ => realNumeral x

/-- The double nearest to a number. -/
def toDouble : Number → Double
  | .whole n _ => .ofInt n
  | .real x _ => x

/-- A signed 64-bit integer as a number. -/
def ofInt64 (n : Int64) : Number :=
  .whole n.toInt (by have := n.le_toInt; have := n.toInt_lt; omega)

end Number

/-! ## Figures -/

/-- A number as it is read, digit by digit. Only the leading digits that fit
    sixty-four bits are kept. -/
structure Figures where
  /-- Whether a minus sign leads. -/
  negative : Bool
  /-- The digits that are kept, read as one number. -/
  significand : Nat
  /-- The power of ten of the last digit that is kept. -/
  shift : Int
  /-- The exponent that is written. -/
  exponent : Int
deriving DecidableEq, Repr

namespace Figures

/-- Before the first digit. -/
def start (negative : Bool) : Figures := ⟨negative, 0, 0, 0⟩

/-- The value of a decimal digit. -/
def digitValue (c : Char) : Nat := c.toNat - '0'.toNat

/-- Whether no more digits are kept: none were kept before, or this one does
    not fit any more. -/
def isFull (f : Figures) (full : Bool) (c : Char) : Bool :=
  full || decide (0x10000000000000000 ≤ 10 * f.significand + digitValue c)

/-- One more digit of the whole part. -/
def addWhole (f : Figures) (full : Bool) (c : Char) : Figures :=
  if full then { f with shift := f.shift + 1 }
  else { f with significand := 10 * f.significand + digitValue c }

/-- One more digit of the fraction. -/
def addFraction (f : Figures) (full : Bool) (c : Char) : Figures :=
  if full then f
  else { f with significand := 10 * f.significand + digitValue c, shift := f.shift - 1 }

/-- One more digit of the exponent. -/
def addExponent (f : Figures) (negative : Bool) (c : Char) : Figures :=
  { f with exponent :=
    if negative then 10 * f.exponent - digitValue c else 10 * f.exponent + digitValue c }

/-- The number as a double. -/
def toDouble (f : Figures) : Double :=
  .ofMagnitude f.negative (Double.scaled f.significand (f.shift + f.exponent))

/-- The number as a double, unless it lies beyond the finite ones. -/
def real? (f : Figures) : Option Number :=
  if h : f.toDouble.isFinite = true then some (.real f.toDouble h) else none

/-- The number of figures without point and exponent: an integer if it fits.
    Minus zero is a double, since no integer has a signed zero. -/
def whole? (f : Figures) : Option Number :=
  if f.shift ≠ 0 then f.real?
  else if f.negative then
    if h : 0 < f.significand ∧ f.significand ≤ 0x8000000000000000 then
      some (.whole (-(f.significand : Int)) (by omega))
    else f.real?
  else if h : f.significand < 0x10000000000000000 then
    some (.whole f.significand (by omega))
  else f.real?

end Figures

/-- A double as a JSON value; those that are not finite become `null`. -/
def Json.ofDouble (x : Double) : Json :=
  if h : x.isFinite = true then .number (.real x h) else .null

end BlockFlow
