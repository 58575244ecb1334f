/-! # The wire format

  The parts of a compact binary format without tags.

  - A natural number is a *varint*: seven bits to a byte, the lowest first,
    and the high bit set on every byte but the last.
  - A signed integer is folded into a natural number (*zigzag*), so that
    small magnitudes stay short.
  - A list or text is its length and then its items or bytes.

  A parser takes what it needs from the front of the unread bytes. Numbers
  that are spelled with more bytes than they need are accepted, as long as
  they stay within the bytes and bits of their width.
-/

namespace BlockFlow.Wire

/-- A row of bytes. -/
abbrev Bytes := List UInt8

/-- Why bytes cannot be read. -/
inductive WireError where
  /-- The bytes end too early. -/
  | endOfBytes
  /-- A varint is too long or too large. -/
  | badVarint
  /-- A truth value is neither 0 nor 1. -/
  | badBool
  /-- The mark of an optional value is neither 0 nor 1. -/
  | badOption
  /-- A text is not valid UTF-8. -/
  | badText
  /-- There is no such variant. -/
  | badVariant
deriving DecidableEq, Repr

/-- The wording of an error. -/
def WireError.message : WireError → String
  | .endOfBytes => "Hit the end of buffer, expected more data"
  | .badVarint =>
    "Found a varint that didn't terminate. Is the usize too big for this platform?"
  | .badBool => "Found a bool that wasn't 0 or 1"
  | .badOption => "Found an Option discriminant that wasn't 0 or 1"
  | .badText => "Tried to parse invalid utf-8"
  | .badVariant => "Serde Deserialization Error"

/-! ## Writing -/

/-- A natural number, seven bits to a byte. -/
def varint (n : Nat) : Bytes :=
  if n < 128 then [UInt8.ofNat n] else UInt8.ofNat (n % 128 + 128) :: varint (n / 128)

/-- A signed integer folded into a natural number. -/
def zigzag (n : Int) : Nat := if 0 ≤ n then 2 * n.natAbs else 2 * n.natAbs - 1

/-- The given number of bytes of a natural number, the lowest first. -/
def littleEndian : Nat → Nat → Bytes
  | 0, _ => []
  | count + 1, n => UInt8.ofNat n :: littleEndian count (n / 256)

/-- A text: its length in bytes and its UTF-8 bytes. -/
def textBytes (s : String) : Bytes :=
  varint s.toByteArray.data.size ++ s.toByteArray.data.toList

/-- A truth value. -/
def flagBytes (b : Bool) : Bytes := [if b then 1 else 0]

/-! ## Reading -/

/-- A way to take a value from the front of the unread bytes. -/
abbrev Parser := StateT Bytes (Except WireError)

/-- Takes one byte. -/
def takeByte : Parser UInt8 := fun bytes =>
  match bytes with
  | [] => .error .endOfBytes
  | b :: rest => .ok (b, rest)

/-- Takes so many bytes. -/
def takeBytes (count : Nat) : Parser Bytes := fun bytes =>
  if count ≤ bytes.length then .ok (bytes.take count, bytes.drop count) else .error .endOfBytes

/-- Takes a varint of at most `count` bytes, of which a last one in that place
    is at most `lastMax`. -/
def takeVarint (lastMax : Nat) : Nat → Parser Nat
  | 0 => throw .badVarint
  | count + 1 => do
    let b ← takeByte
    if b.toNat < 128 then
      if count = 0 ∧ lastMax < b.toNat then throw .badVarint
      else return b.toNat
    else
      let high ← takeVarint lastMax count
      return b.toNat - 128 + 128 * high

/-- Takes a number of 32 bits: the number of a variant. -/
def takeIndex : Parser Nat := takeVarint 15 5

/-- Takes a number of 64 bits. -/
def takeNat : Parser Nat := takeVarint 1 10

/-- The integer that was folded into a natural number. -/
def unzigzag (n : Nat) : Int := if n % 2 = 0 then (n / 2 : Nat) else -((n / 2 : Nat) : Int) - 1

/-- Takes a signed integer. -/
def takeInt : Parser Int64 := do
  let n ← takeNat
  return Int64.ofInt (unzigzag n)

/-- The natural number of bytes, the lowest first. -/
def ofLittleEndian : Bytes → Nat
  | [] => 0
  | b :: rest => b.toNat + 256 * ofLittleEndian rest

/-- Takes a truth value. -/
def takeFlag : Parser Bool := do
  let b ← takeByte
  if b = 0 then return false
  else if b = 1 then return true
  else throw .badBool

/-- Takes a text. -/
def takeText : Parser String := do
  let count ← takeNat
  let bytes ← takeBytes count
  match String.fromUTF8? ⟨bytes.toArray⟩ with
  | some s => return s
  | none => throw .badText

/-- Takes an optional value. -/
def takeOption {α : Type} (take : Parser α) : Parser (Option α) := do
  let b ← takeByte
  if b = 0 then return none
  else if b = 1 then
    let value ← take
    return some value
  else throw .badOption

/-- Takes so many items. -/
def takeItems {α : Type} (take : Parser α) : Nat → Parser (List α)
  | 0 => return []
  | count + 1 => do
    let first ← take
    let rest ← takeItems take count
    return first :: rest

/-- Takes a list. -/
def takeList {α : Type} (take : Parser α) : Parser (List α) := do
  let count ← takeNat
  takeItems take count

/-- Takes one of the given values by its position. -/
def takeOneOf {α : Type} (all : List α) : Parser α := do
  let n ← takeIndex
  match all[n]? with
  | some a => return a
  | none => throw .badVariant

end BlockFlow.Wire
