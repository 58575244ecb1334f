import BlockFlow.Json.Basic
import BlockFlow.Text.Quoted

/-! # Problems of a JSON text

  Why a JSON text cannot be read as what is wanted. A problem is of one of
  three kinds:

  - the text is *cut short*: it ends where more is needed;
  - the text is *malformed*: it breaks the rules of JSON, or nests too deep;
  - the text is *unsuitable*: it is sound JSON so far, but not of the wanted
    shape.

  Each problem has one wording, given by `Problem.message`. Whoever reports a
  problem may say behind it where in the text it is, as a `Position`.
-/

namespace BlockFlow.Json

/-- What a text was in the middle of when it ended. -/
inductive Region where
  /-- A value was due, or had begun. -/
  | value
  /-- A list was open. -/
  | list
  /-- An object was open. -/
  | object
  /-- A string was open. -/
  | string
deriving DecidableEq, Repr

/-- A way to break the rules of JSON. -/
inductive Fault where
  /-- No colon after a key. -/
  | noColon
  /-- Neither a comma nor the end after an item of a list. -/
  | noListComma
  /-- Neither a comma nor the end after a member of an object. -/
  | noObjectComma
  /-- A word other than `null`, `true` and `false`. -/
  | badWord
  /-- Something that begins no value. -/
  | noValue
  /-- An unknown escape in a string. -/
  | badEscape
  /-- A number that breaks off or has a leading zero. -/
  | badNumber
  /-- A number beyond the finite doubles. -/
  | hugeNumber
  /-- A bare control character in a string. -/
  | controlChar
  /-- A key that is not a string. -/
  | keyNotString
  /-- Half of a surrogate pair without the other half. -/
  | loneSurrogate
  /-- A leading surrogate with no escape after it. -/
  | noSecondEscape
  /-- A comma before the end of a list or object. -/
  | trailingComma
  /-- Something after the end. -/
  | trailingText
  /-- More containers inside each other than are allowed. -/
  | tooDeep
deriving DecidableEq, Repr

/-- What was found in place of something else. -/
inductive Found where
  /-- The value `null`. -/
  | null
  /-- A truth value. -/
  | bool (b : Bool)
  /-- A number. -/
  | number (n : Number)
  /-- A string. -/
  | string (s : String)
  /-- A list. -/
  | list
  /-- An object. -/
  | object
deriving DecidableEq

/-- Why a text cannot be read as what is wanted. -/
inductive Problem where
  /-- The text ends inside of something. -/
  | cutShort (inside : Region)
  /-- The text breaks the rules. -/
  | malformed (fault : Fault)
  /-- A value of the wrong type. -/
  | wrongType (found : Found) (wanted : String)
  /-- An integer that does not fit. -/
  | wrongValue (n : Int) (wanted : String)
  /-- A list of the wrong length. -/
  | wrongLength (length : Nat) (wanted : String)
  /-- A variant that there is not. -/
  | unknownVariant (name : String) (known : List String)
  /-- A variant named without the content it must have. -/
  | noContent (wanted : String)
  /-- A field that is not there. -/
  | missingField (name : String)
  /-- A field that is there twice. -/
  | repeatedField (name : String)
deriving DecidableEq

/-- The three kinds of problems. -/
inductive Kind where
  /-- The text ends too early. -/
  | cutShort
  /-- The text breaks the rules. -/
  | malformed
  /-- The text does not have the wanted shape. -/
  | unsuitable
deriving DecidableEq, Repr

/-- The kind of a problem. -/
def Problem.kind : Problem → Kind
  | .cutShort _ => .cutShort
  | .malformed _ => .malformed
  | _ => .unsuitable

/-- A place in a text: a line, counted from one, and how far the line has been
    read. Line zero stands for no place. -/
structure Position where
  /-- The line. -/
  line : Nat := 0
  /-- The column. -/
  column : Nat := 0
deriving DecidableEq, Repr

/-! ## Wording -/

/-- The noun for a region. -/
def Region.noun : Region → String
  | .value => "a value"
  | .list => "a list"
  | .object => "an object"
  | .string => "a string"

/-- The wording of a fault. -/
def Fault.message : Fault → String
  | .noColon => "expected `:`"
  | .noListComma => "expected `,` or `]`"
  | .noObjectComma => "expected `,` or `\x7d`"
  | .badWord => "expected ident"
  | .noValue => "expected value"
  | .badEscape => "invalid escape"
  | .badNumber => "invalid number"
  | .hugeNumber => "number out of range"
  | .controlChar => "control character (\\u0000-\\u001F) found while parsing a string"
  | .keyNotString => "key must be a string"
  | .loneSurrogate => "lone leading surrogate in hex escape"
  | .noSecondEscape => "unexpected end of hex escape"
  | .trailingComma => "trailing comma"
  | .trailingText => "trailing characters"
  | .tooDeep => "recursion limit exceeded"

/-- How a find is described. -/
def Found.describe : Found → String
  | .null => "null"
  | .bool b => "boolean `" ++ (if b then "true" else "false") ++ "`"
  | .number (.whole n h) => "integer `" ++ String.ofList (Number.whole n h).numeral.text ++ "`"
  | .number (.real x h) =>
    "floating point `" ++ String.ofList (Number.real x h).numeral.text ++ "`"
  | .string s => "string " ++ Text.quote s
  | .list => "sequence"
  | .object => "map"

/-- A choice between names: two are joined by "or", any other number is
    announced by "one of". -/
def oneOf (names : List String) : String :=
  match names.map fun name => "`" ++ name ++ "`" with
  | [first, second] => first ++ " or " ++ second
  | quoted => "one of " ++ String.intercalate ", " quoted

/-- The wording of a problem. -/
def Problem.message : Problem → String
  | .cutShort region => "EOF while parsing " ++ region.noun
  | .malformed fault => fault.message
  | .wrongType found wanted => "invalid type: " ++ found.describe ++ ", expected " ++ wanted
  | .wrongValue n wanted => "invalid value: integer `" ++ toString n ++ "`, expected " ++ wanted
  | .wrongLength length wanted =>
    "invalid length " ++ toString length ++ ", expected " ++ wanted
  | .unknownVariant name known =>
    "unknown variant `" ++ name ++ "`, expected " ++ oneOf known
  | .noContent wanted => "invalid type: unit variant, expected " ++ wanted
  | .missingField name => "missing field `" ++ name ++ "`"
  | .repeatedField name => "duplicate field `" ++ name ++ "`"

/-- What is said of a place behind the wording of a problem. -/
def Position.message (position : Position) : String :=
  if position.line = 0 then ""
  else " at line " ++ toString position.line ++ " column " ++ toString position.column

end BlockFlow.Json
