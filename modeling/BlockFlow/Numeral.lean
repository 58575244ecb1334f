import BlockFlow.Double

/-! # Numerals

  Decimal numerals, and the fewest digits that name a double.

  - A `Numeral` is a number as it is written: sign, digits, how many of the
    digits stand after the point, and an exponent if one is given. Its `text`
    is what is printed.
  - A `Decimal` is a number `digits * 10 ^ exponent`. `Double.shortest` finds
    the decimal with the fewest digits to which a given double is nearest.
  - A decimal becomes a numeral by one of two layouts, `positional` and
    `scientific`.
-/

namespace BlockFlow

/-! ## Numerals and their text -/

/-- A number as it is written in decimal. -/
structure Numeral where
  /-- Whether a minus sign leads. -/
  negative : Bool
  /-- All digits before and after the point, read as one number. -/
  mantissa : Nat
  /-- How many of the digits stand after the point; there is a point only if
      some do. -/
  scale : Nat
  /-- The exponent, if one is written. -/
  exponent : Option Int
deriving DecidableEq, Repr

namespace Numeral

/-- The sign and digits of an exponent. -/
def exponentText (exponent : Int) : List Char :=
  'e' :: (if exponent < 0 then '-' else '+') :: Nat.toDigits 10 exponent.natAbs

/-- The numeral as text: at least one digit before the point, exactly `scale`
    digits after it. -/
def text (n : Numeral) : List Char :=
  (if n.negative then ['-'] else []) ++
  Nat.toDigits 10 (n.mantissa / Nat.pow 10 n.scale) ++
  (if n.scale = 0 then []
    else '.' :: (Nat.toDigits 10 (n.mantissa % Nat.pow 10 n.scale)).leftpad n.scale '0') ++
  (match n.exponent with
    | none => []
    | some e => exponentText e)

end Numeral

/-! ## Decimals and their layouts -/

/-- The number `digits * 10 ^ exponent`. -/
structure Decimal where
  /-- The significant digits. -/
  digits : Nat
  /-- The power of ten they are counted in. -/
  exponent : Int
deriving DecidableEq, Repr

namespace Decimal

/-- How many digits there are. -/
def width (d : Decimal) : Nat := (Nat.toDigits 10 d.digits).length

/-- The power of ten of the first digit. -/
def lead (d : Decimal) : Int := d.exponent + d.width - 1

/-- All digits in their places, at least `places` of them after the point. -/
def positional (negative : Bool) (places : Nat) (d : Decimal) : Numeral where
  negative := negative
  mantissa := d.digits * Nat.pow 10 (d.exponent + (max places (-d.exponent).toNat)).toNat
  scale := max places (-d.exponent).toNat
  exponent := none

/-- One digit before the point, and the exponent that this takes. -/
def scientific (negative : Bool) (d : Decimal) : Numeral where
  negative := negative
  mantissa := d.digits
  scale := d.width - 1
  exponent := some d.lead

end Decimal

/-! ## The fewest digits -/

/-- Where a double lies exactly between two shortest decimals, which of them
    is taken. -/
inductive Tie where
  /-- The one whose last digit is even. -/
  | toEven
  /-- The larger one. -/
  | up

namespace Double

/-- The exact decimal of a finite magnitude, with very many digits:
    a unit `2 ^ -1074` is `5 ^ 1074 * 10 ^ -1074`. -/
def exactDecimal (magnitude : Nat) : Decimal := ⟨unitsOf magnitude * Nat.pow 5 1074, -1074⟩

/-- The two neighbours of `exact` among the decimals of `width` digits, when
    `dropped` digits have to go for that. -/
def neighbours (exact : Decimal) (width dropped : Nat) : Decimal × Decimal :=
  let below := exact.digits / Nat.pow 10 dropped
  let exponent := exact.exponent + dropped
  (⟨below, exponent⟩,
    -- The neighbour above 9.99 is 10, with fewer digits.
    if below + 1 = Nat.pow 10 width then ⟨1, exponent + width⟩ else ⟨below + 1, exponent⟩)

/-- Whether the lower of the two neighbours is the one to take when the
    double is nearest to both. -/
def lowerWins (tie : Tie) (exact : Decimal) (dropped : Nat) : Bool :=
  let unit := Nat.pow 10 dropped
  let rest := 2 * (exact.digits % unit)
  rest < unit || (rest == unit && (match tie with
    | .toEven => exact.digits / unit % 2 == 0
    | .up => false))

/-- The decimal of `width` digits to which `magnitude` is nearest, if there is
    one; of two the closer one. -/
def ofWidth? (tie : Tie) (magnitude : Nat) (exact : Decimal) (width dropped : Nat) :
    Option Decimal :=
  let (below, above) := neighbours exact width dropped
  match ofDecimal below.digits below.exponent == magnitude,
      ofDecimal above.digits above.exponent == magnitude with
  | true, true => some (if lowerWins tie exact dropped then below else above)
  | true, false => some below
  | false, true => some above
  | false, false => none

/-- The decimal with the fewest digits to which `magnitude` is nearest.
    Seventeen digits are enough for every double; the exact decimal stands
    behind them, so that the double is nearest to the result in any case. -/
def shortest (tie : Tie) (magnitude : Nat) : Decimal :=
  if magnitude = 0 then ⟨0, 0⟩
  else
    let exact := exactDecimal magnitude
    let size := exact.width
    ((List.range 17).findSome? fun k =>
      ofWidth? tie magnitude exact (k + 1) (size - (k + 1))).getD exact

end Double

end BlockFlow
