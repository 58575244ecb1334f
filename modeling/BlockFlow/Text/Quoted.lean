import BlockFlow.Text.Printable

/-! # Quoted text

  How a text is shown between quotation marks in outlines and messages.

  - Six characters have an escape of one letter: NUL, tab, line feed,
    carriage return, the quotation mark and the backslash.
  - Every other unprintable character becomes `\u`, an opening brace, its
    code point in lower-case hexadecimal, and a closing brace.
  - All else stands for itself, the apostrophe included.

  No quoted text holds a line feed.
-/

namespace BlockFlow.Text

/-- How one character is written inside quotation marks. -/
def quoteChar (c : Char) : List Char :=
  if c = '\x00' then ['\\', '0']
  else if c = '\t' then ['\\', 't']
  else if c = '\n' then ['\\', 'n']
  else if c = '\r' then ['\\', 'r']
  else if c = '"' then ['\\', '"']
  else if c = '\\' then ['\\', '\\']
  else if isPrintable c then [c]
  else '\\' :: 'u' :: '\x7b' :: Nat.toDigits 16 c.toNat ++ ['\x7d']

/-- A text between quotation marks. -/
def quote (s : String) : String :=
  String.ofList ('"' :: s.toList.flatMap quoteChar ++ ['"'])

end BlockFlow.Text
