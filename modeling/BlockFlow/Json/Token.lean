import BlockFlow.Json.Problem

/-! # Tokens of a JSON text

  A JSON text is cut into tokens by a machine that looks at one character
  after another, so the tokens of a text are a fold over its characters.

  - Blanks (space, tab, line feed, carriage return) stand between tokens.
  - A number ends before the first character that cannot extend it.
  - A token that breaks the rules, or that the end of the text cuts short,
    is the last one: nothing behind it is looked at.

  Two readers use the tokens. The one that wants the values reports every
  fault. The other one only passes over a value that nobody asked for, and
  is content with less: it accepts numbers beyond the doubles and unpaired
  surrogates. A broken token therefore carries two problems, the one for
  *reading* and the one for *passing*.
-/

namespace BlockFlow.Json

/-- What had begun at a place where the text cannot be followed. -/
inductive Begun where
  /-- No value at all. -/
  | nothing
  /-- The word `null`. -/
  | null
  /-- Another word, or a number. -/
  | scalar
  /-- A string. -/
  | string
deriving DecidableEq, Repr

/-- A token of a JSON text. -/
inductive Token where
  /-- An opening bracket. -/
  | openList
  /-- A closing bracket. -/
  | closeList
  /-- An opening brace. -/
  | openObject
  /-- A closing brace. -/
  | closeObject
  /-- A comma. -/
  | comma
  /-- A colon. -/
  | colon
  /-- The word `null`. -/
  | null
  /-- The word `true` or `false`. -/
  | bool (b : Bool)
  /-- A number; a fault if it can be passed over but not read. -/
  | number (n : Except Fault Number)
  /-- A string; a fault if it can be passed over but not read. -/
  | string (s : Except Fault String)
  /-- A word, number or string that breaks the rules or breaks off. -/
  | broken (begun : Begun) (reading passing : Problem)
  /-- A character that begins no token. -/
  | stray

/-- The problem with a token where something else is wanted. -/
def Token.refuse (wanted : String) : Token → Problem
  | .null => .wrongType .null wanted
  | .bool b => .wrongType (.bool b) wanted
  | .number (.ok n) => .wrongType (.number n) wanted
  | .string (.ok s) => .wrongType (.string s) wanted
  | .openList => .wrongType .list wanted
  | .openObject => .wrongType .object wanted
  | .number (.error fault) | .string (.error fault) => .malformed fault
  | .broken _ reading _ => reading
  | .closeList | .closeObject | .comma | .colon | .stray => .malformed .noValue

/-! ## Numbers -/

/-- Where in a number the machine stands: behind which part of it. -/
inductive Phase where
  /-- Behind the minus sign. -/
  | sign
  /-- Behind a leading zero. -/
  | zero
  /-- Behind a digit of the whole part; `full` once digits are dropped. -/
  | whole (full : Bool)
  /-- Behind the point. -/
  | point
  /-- Behind a digit of the fraction; `full` once digits are dropped. -/
  | fraction (full : Bool)
  /-- Behind the exponent mark. -/
  | mark
  /-- Behind the sign of the exponent. -/
  | markSign (negative : Bool)
  /-- Behind a digit of the exponent. -/
  | exponent (negative : Bool)

/-- What a character does to a number. -/
inductive Growth where
  /-- It belongs to the number. -/
  | more (phase : Phase) (f : Figures)
  /-- The number is complete without it. -/
  | over
  /-- The number needed something else. -/
  | bad

/-- Whether a number may end in this phase. -/
def Phase.mayEnd : Phase → Bool
  | .zero | .whole _ | .fraction _ | .exponent _ => true
  | _ => false

/-- One more digit of the whole part. -/
def growWhole (full : Bool) (f : Figures) (c : Char) : Growth :=
  .more (.whole (f.isFull full c)) (f.addWhole (f.isFull full c) c)

/-- One more digit of the fraction. -/
def growFraction (full : Bool) (f : Figures) (c : Char) : Growth :=
  .more (.fraction (f.isFull full c)) (f.addFraction (f.isFull full c) c)

/-- One more digit of the exponent. -/
def growExponent (negative : Bool) (f : Figures) (c : Char) : Growth :=
  .more (.exponent negative) (f.addExponent negative c)

/-- What a character does to a number in a given phase. -/
def Phase.step (phase : Phase) (f : Figures) (c : Char) : Growth :=
  match phase with
  | .sign =>
    if c = '0' then .more .zero f
    else if c.isDigit then growWhole false f c
    else .bad
  | .zero =>
    if c.isDigit then .bad
    else if c = '.' then .more .point f
    else if c = 'e' ∨ c = 'E' then .more .mark f
    else .over
  | .whole full =>
    if c.isDigit then growWhole full f c
    else if c = '.' then .more .point f
    else if c = 'e' ∨ c = 'E' then .more .mark f
    else .over
  | .point => if c.isDigit then growFraction false f c else .bad
  | .fraction full =>
    if c.isDigit then growFraction full f c
    else if c = 'e' ∨ c = 'E' then .more .mark f
    else .over
  | .mark =>
    if c = '+' then .more (.markSign false) f
    else if c = '-' then .more (.markSign true) f
    else if c.isDigit then growExponent false f c
    else .bad
  | .markSign negative => if c.isDigit then growExponent negative f c else .bad
  | .exponent negative => if c.isDigit then growExponent negative f c else .over

/-- The number that figures name when it ends in a given phase. -/
def Phase.number? (phase : Phase) (f : Figures) : Option Number :=
  match phase with
  | .sign | .zero | .whole _ => f.whole?
  | _ => f.real?

/-- The token of a number that ends in a given phase. -/
def numberToken (phase : Phase) (f : Figures) : Token :=
  .number (match phase.number? f with
    | some value => .ok value
    | none => .error .hugeNumber)

/-! ## Strings -/

/-- The part of a string that has been read. -/
structure Spelling where
  /-- Its characters, the latest first, or the first fault that keeps it
      from being read. -/
  chars : Except Fault (List Char)
  /-- A leading surrogate whose other half is due. -/
  lead : Option Nat

namespace Spelling

/-- Nothing read so far. -/
def empty : Spelling := ⟨.ok [], none⟩

/-- Notes a fault, unless there was one before. -/
def flaw (s : Spelling) (fault : Fault) : Spelling :=
  ⟨s.chars.bind fun _ => .error fault, none⟩

/-- Something other than the second half of a surrogate pair comes next. -/
def settle (s : Spelling) : Spelling :=
  if s.lead.isSome then s.flaw .noSecondEscape else s

/-- One more character. -/
def push (s : Spelling) (c : Char) : Spelling := ⟨s.chars.map (c :: ·), none⟩

/-- One more sixteen-bit unit, which may be half of a surrogate pair. -/
def pushUnit (s : Spelling) (u : Nat) : Spelling :=
  match s.lead with
  | none =>
    if 0xDC00 ≤ u ∧ u ≤ 0xDFFF then s.flaw .loneSurrogate
    else if 0xD800 ≤ u ∧ u ≤ 0xDBFF then { s with lead := some u }
    else s.push (Char.ofNat u)
  | some high =>
    if 0xDC00 ≤ u ∧ u ≤ 0xDFFF then
      s.push (Char.ofNat (0x10000 + (high - 0xD800) * 0x400 + (u - 0xDC00)))
    else s.flaw .loneSurrogate

/-- The token of a string that ends here. -/
def token (s : Spelling) : Token := .string (s.settle.chars.map fun cs => String.ofList cs.reverse)

/-- The token of a string that breaks off here. A reader of the string
    stumbles over an earlier fault first. -/
def broken (s : Spelling) (problem : Problem) : Token :=
  .broken .string
    (match s.chars with
      | .ok _ => problem
      | .error fault => .malformed fault)
    problem

end Spelling

/-- The character that an escape of one letter stands for. -/
def unescape? (c : Char) : Option Char :=
  if c = '"' ∨ c = '\\' ∨ c = '/' then some c
  else if c = 'b' then some '\x08'
  else if c = 'f' then some '\x0c'
  else if c = 'n' then some '\n'
  else if c = 'r' then some '\r'
  else if c = 't' then some '\t'
  else none

/-- The value of a hexadecimal digit. -/
def hexValue? (c : Char) : Option Nat :=
  if c.isDigit then some (c.toNat - '0'.toNat)
  else if 'a' ≤ c ∧ c ≤ 'f' then some (c.toNat - 'a'.toNat + 10)
  else if 'A' ≤ c ∧ c ≤ 'F' then some (c.toNat - 'A'.toNat + 10)
  else none

/-! ## The machine -/

/-- What the machine is in the middle of. -/
inductive Mode where
  /-- Between two tokens. -/
  | between
  /-- In a word, of which `rest` is still due. -/
  | word (rest : List Char) (token : Token)
  /-- In a number. -/
  | number (phase : Phase) (f : Figures)
  /-- In a string. -/
  | string (s : Spelling)
  /-- Behind a backslash in a string. -/
  | escape (s : Spelling)
  /-- In the four bytes behind `\u` in a string; the value is lost when one
      of them is no hexadecimal digit. -/
  | hex (s : Spelling) (bytes : Nat) (value : Option Nat)
  /-- Behind a broken token. -/
  | stopped

/-- The state of the machine. -/
structure Lexer where
  /-- What it is in the middle of. -/
  mode : Mode
  /-- The tokens so far, the latest first. -/
  tokens : List Token

namespace Lexer

/-- Before the first character. -/
def start : Lexer := ⟨.between, []⟩

/-- A token is complete. -/
def emit (lexer : Lexer) (token : Token) : Lexer := ⟨.between, token :: lexer.tokens⟩

/-- A token is broken, and the machine stops. -/
def fail (lexer : Lexer) (token : Token) : Lexer := ⟨.stopped, token :: lexer.tokens⟩

/-- The machine goes on in another mode. -/
def goTo (lexer : Lexer) (mode : Mode) : Lexer := { lexer with mode }

/-- A character between two tokens. -/
def begin (lexer : Lexer) (c : Char) : Lexer :=
  if c = ' ' ∨ c = '\n' ∨ c = '\t' ∨ c = '\r' then lexer.goTo .between
  else if c = '[' then lexer.emit .openList
  else if c = ']' then lexer.emit .closeList
  else if c = '\x7b' then lexer.emit .openObject
  else if c = '\x7d' then lexer.emit .closeObject
  else if c = ',' then lexer.emit .comma
  else if c = ':' then lexer.emit .colon
  else if c = '"' then lexer.goTo (.string .empty)
  else if c = 'n' then lexer.goTo (.word ['u', 'l', 'l'] .null)
  else if c = 't' then lexer.goTo (.word ['r', 'u', 'e'] (.bool true))
  else if c = 'f' then lexer.goTo (.word ['a', 'l', 's', 'e'] (.bool false))
  else if c = '-' then lexer.goTo (.number .sign (.start true))
  else if c = '0' then lexer.goTo (.number .zero (.start false))
  else if c.isDigit then lexer.goTo (.number (.whole false) ((Figures.start false).addWhole false c))
  else lexer.fail .stray

/-- A word that is broken. -/
def brokenWord (token : Token) (problem : Problem) : Token :=
  .broken (match token with
    | .null => .null
    | _ => .scalar) problem problem

/-- A character inside a word. -/
def inWord (lexer : Lexer) (rest : List Char) (token : Token) (c : Char) : Lexer :=
  match rest with
  | [] => lexer.begin c
  | next :: rest =>
    if c = next then
      if rest.isEmpty then lexer.emit token else lexer.goTo (.word rest token)
    else lexer.fail (brokenWord token (.malformed .badWord))

/-- A character inside a number. -/
def inNumber (lexer : Lexer) (phase : Phase) (f : Figures) (c : Char) : Lexer :=
  match phase.step f c with
  | .more phase f => lexer.goTo (.number phase f)
  | .over => (lexer.emit (numberToken phase f)).begin c
  | .bad => lexer.fail (.broken .scalar (.malformed .badNumber) (.malformed .badNumber))

/-- A character inside a string. -/
def inString (lexer : Lexer) (s : Spelling) (c : Char) : Lexer :=
  if c = '"' then lexer.emit s.token
  else if c = '\\' then lexer.goTo (.escape s)
  else if c.toNat < 0x20 then lexer.fail (s.settle.broken (.malformed .controlChar))
  else lexer.goTo (.string (s.settle.push c))

/-- A character behind a backslash. -/
def inEscape (lexer : Lexer) (s : Spelling) (c : Char) : Lexer :=
  if c = 'u' then lexer.goTo (.hex s 0 (some 0))
  else
    match unescape? c with
    | some plain => lexer.goTo (.string (s.settle.push plain))
    | none => lexer.fail (s.settle.broken (.malformed .badEscape))

/-- A character behind `\u`. Four bytes are looked at before they are judged. -/
def inHex (lexer : Lexer) (s : Spelling) (bytes : Nat) (value : Option Nat) (c : Char) : Lexer :=
  let value := value.bind fun v => (hexValue? c).map (16 * v + ·)
  if bytes + c.utf8Size < 4 then lexer.goTo (.hex s (bytes + c.utf8Size) value)
  else
    match value with
    | some u => lexer.goTo (.string (s.pushUnit u))
    | none => lexer.fail (s.broken (.malformed .badEscape))

/-- Takes in one character. -/
def step (lexer : Lexer) (c : Char) : Lexer :=
  match lexer.mode with
  | .between => lexer.begin c
  | .word rest token => lexer.inWord rest token c
  | .number phase f => lexer.inNumber phase f c
  | .string s => lexer.inString s c
  | .escape s => lexer.inEscape s c
  | .hex s bytes value => lexer.inHex s bytes value c
  | .stopped => lexer

/-- The end of the text: what is in the middle breaks off. -/
def finish (lexer : Lexer) : List Token :=
  let all := match lexer.mode with
    | .between | .stopped => lexer.tokens
    | .word _ token => brokenWord token (.cutShort .value) :: lexer.tokens
    | .number phase f =>
      if phase.mayEnd then numberToken phase f :: lexer.tokens
      -- To a reader the number is cut short, to one who passes over it, it is bad.
      else .broken .scalar (.cutShort .value) (.malformed .badNumber) :: lexer.tokens
    | .string s | .escape s | .hex s _ _ => s.broken (.cutShort .string) :: lexer.tokens
  all.reverse

end Lexer

/-- The tokens of a text. -/
def tokens (text : List Char) : List Token := (text.foldl Lexer.step .start).finish

end BlockFlow.Json
