import BlockFlow.Json.Basic
import BlockFlow.Text.Quoted

/-! # Scalar values

  The literals of flows and programs.
-/

namespace BlockFlow

/-- A scalar value. -/
inductive Value where
  /-- No value. -/
  | null
  /-- A signed 64-bit integer. -/
  | integer (n : Int64)
  /-- A double. -/
  | float (x : Double)
  /-- A text. -/
  | string (s : String)
  /-- A truth value. -/
  | bool (b : Bool)
deriving DecidableEq, Inhabited

namespace Value

/-- A number as a value: an integer if it fits 64 signed bits, else a double. -/
def ofNumber : Number → Value
  | .whole n _ =>
    if n < 0x8000000000000000 then .integer (Int64.ofInt n) else .float (Double.ofInt n)
  | .real x _ => .float x

/-- The scalar of a JSON value; lists and objects are none. -/
def ofJson? : Json → Option Value
  | .null => some .null
  | .bool b => some (.bool b)
  | .number n => some (ofNumber n)
  | .string s => some (.string s)
  | .list _ | .object _ => none

/-- How a double is shown: the fewest digits that read back, all in their
    places, with no point unless a digit follows it. -/
def showFloat (x : Double) : String :=
  if x.isNaN then "NaN"
  else if !x.isFinite then (if x.negative then "-inf" else "inf")
  else String.ofList ((Double.shortest .up x.magnitude).positional x.negative 0).text

/-- How a value is shown. -/
def render : Value → String
  | .null => "null"
  | .integer n => toString n.toInt
  | .float x => showFloat x
  | .string s => Text.quote s
  | .bool b => if b then "true" else "false"

/-- Equality, with doubles compared as numbers. -/
def agrees : Value → Value → Bool
  | .null, .null => true
  | .integer m, .integer n => m == n
  | .float x, .float y => x.agrees y
  | .string s, .string t => s == t
  | .bool a, .bool b => a == b
  | _, _ => false

end Value

end BlockFlow
