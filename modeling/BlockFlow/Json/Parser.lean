import BlockFlow.Entries
import BlockFlow.Json.Reader

/-! # Reading JSON values

  Any text that is sound JSON and nests at most `maxDepth` containers can be
  read as a `Json` value. A key that comes more than once keeps its first
  place and its last value.
-/

namespace BlockFlow.Json

/-- Reads any value, with room for `n` containers inside each other. -/
def read : Nat → Reader Json
  | _, .null => .ok .null
  | _, .bool b => .ok (.bool b)
  | _, .number n => .ok (.number n)
  | _, .string s => .ok (.string s)
  | 0, .list _ _ | 0, .object _ _ => .error (.malformed .tooDeep)
  | n + 1, .list items ending => do
    let items ← listOf (some (read n)) (.list items ending)
    return .list items
  | n + 1, .object members ending => do
    let members ← membersOf (some (read n)) (.object members ending)
    return .object (Entries.ofPairs members)
  | _, .unfit fault => .error (.malformed fault)
  | _, .broken _ reading _ => .error reading

/-- The value of a JSON text. -/
def parse (text : String) : Except Problem Json := readText (read maxDepth) text

end BlockFlow.Json
