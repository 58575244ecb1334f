import BlockFlow.Json.Basic

/-! # JSON text

  Writing JSON values as text.

  One writer serves two styles. A `Style` says what stands where a line may
  break and after a colon: nothing in the compact style, line breaks with two
  spaces of indentation for each level in the indented one. Both styles put
  blanks between tokens only, so that the text reads as the same value.
-/

namespace BlockFlow.Json

/-- What a writer puts between the tokens. -/
structure Style where
  /-- Stands where a line may break, at a given depth of nesting. -/
  lineBreak : Nat → List Char
  /-- Stands between a colon and the value after it. -/
  afterColon : List Char

/-- No blanks at all. -/
def Style.compact : Style where
  lineBreak _ := []
  afterColon := []

/-- One item or member to a line, two spaces of indentation for each level. -/
def Style.indented : Style where
  lineBreak depth := '\n' :: List.replicate (2 * depth) ' '
  afterColon := [' ']

/-- How one character is written inside a string. Control characters without
    a letter of their own take four hexadecimal digits. -/
def escapeChar (c : Char) : List Char :=
  if c = '"' then ['\\', '"']
  else if c = '\\' then ['\\', '\\']
  else if c = '\x08' then ['\\', 'b']
  else if c = '\t' then ['\\', 't']
  else if c = '\n' then ['\\', 'n']
  else if c = '\x0c' then ['\\', 'f']
  else if c = '\r' then ['\\', 'r']
  else if c.toNat < 0x20 then '\\' :: 'u' :: (Nat.toDigits 16 c.toNat).leftpad 4 '0'
  else [c]

/-- A string between quotation marks. -/
def stringText (s : String) : List Char := '"' :: s.toList.flatMap escapeChar ++ ['"']

mutual

/-- The text of a value that stands at the given depth. -/
def write (style : Style) (depth : Nat) : Json → List Char
  | .null => "null".toList
  | .bool b => if b then "true".toList else "false".toList
  | .number n => n.numeral.text
  | .string s => stringText s
  | .list [] => "[]".toList
  | .list (item :: items) =>
    '[' :: style.lineBreak (depth + 1) ++ write style (depth + 1) item ++
      writeItems style depth items
  | .object [] => ['\x7b', '\x7d']
  | .object ((key, value) :: members) =>
    '\x7b' :: style.lineBreak (depth + 1) ++ stringText key ++ ':' :: style.afterColon ++
      write style (depth + 1) value ++ writeMembers style depth members

/-- What follows the first item of a list. -/
def writeItems (style : Style) (depth : Nat) : List Json → List Char
  | [] => style.lineBreak depth ++ [']']
  | item :: items =>
    ',' :: style.lineBreak (depth + 1) ++ write style (depth + 1) item ++
      writeItems style depth items

/-- What follows the first member of an object. -/
def writeMembers (style : Style) (depth : Nat) : List (String × Json) → List Char
  | [] => style.lineBreak depth ++ ['\x7d']
  | (key, value) :: members =>
    ',' :: style.lineBreak (depth + 1) ++ stringText key ++ ':' :: style.afterColon ++
      write style (depth + 1) value ++ writeMembers style depth members

end

/-- The text of a value without blanks. -/
def compact (j : Json) : String := String.ofList (write .compact 0 j)

/-- The text of a value with one item or member to a line. -/
def indented (j : Json) : String := String.ofList (write .indented 0 j)

end BlockFlow.Json
