import BlockFlow.Value
import BlockFlow.Text.Split

/-! # Flows

  The block programs that are compiled. A flow is a list of blocks. A block
  has a head, arguments, and up to two inner flows.

  Some opcodes and some text arguments carry a name behind an underscore:

  - `storein2_x` stores in the box `x`, `nameddo_f` performs the action `f`;
  - `box_x` is the content of the box `x`, and `bool_true` is the truth value.

  They are taken apart once, when a block or an argument is made.
-/

namespace BlockFlow

/-- What a block does. -/
inductive Head where
  /-- An operation, by its opcode. -/
  | op (opcode : String)
  /-- Stores a value in a box. -/
  | store (name : String)
  /-- Performs an action. -/
  | perform (name : String)
deriving DecidableEq, Inhabited

/-- An argument of a block or of another argument. -/
inductive Arg where
  /-- An empty slot. -/
  | null
  /-- A literal value. -/
  | literal (v : Value)
  /-- The content of a box. -/
  | box (name : String)
  /-- An operation applied to arguments. -/
  | apply (opcode : String) (args : List Arg)
deriving Inhabited

/-- A block. -/
structure Block where
  /-- What it does. -/
  head : Head
  /-- Its arguments. -/
  args : List Arg
  /-- The flow inside it, if it has one. -/
  body : Option (List Block)
  /-- Its second flow, if it has one. -/
  orElse : Option (List Block)
deriving Inhabited

/-- A row of blocks. -/
abbrev Flow := List Block

namespace Head

/-- Begins the opcodes that store in a box. -/
def storeLead : String := "storein2_"

/-- Begins the opcodes that perform an action. -/
def performLead : String := "nameddo_"

/-- The head that an opcode stands for. -/
def ofOpcode (opcode : String) : Head :=
  match Text.afterLead? storeLead opcode with
  | some name => .store name
  | none =>
    match Text.afterLead? performLead opcode with
    | some name => .perform name
    | none => .op opcode

/-- The opcode of a head. -/
def opcode : Head → String
  | .op opcode => opcode
  | .store name => storeLead ++ name
  | .perform name => performLead ++ name

end Head

namespace Arg

/-- Begins the texts that stand for truth values. -/
def boolLead : String := "bool_"

/-- Begins the texts that stand for boxes. -/
def boxLead : String := "box_"

/-- The argument that a text stands for. -/
def ofText (s : String) : Arg :=
  match Text.afterLead? boolLead s with
  | some word => .literal (.bool (word == "true"))
  | none =>
    match Text.afterLead? boxLead s with
    | some name => .box name
    | none => .literal (.string s)

/-- A value as an argument; no value is an empty slot. -/
def ofValue : Value → Arg
  | .null => .null
  | value => .literal value

end Arg

namespace Block

/-- A block without inner flows, from its opcode. -/
def make (opcode : String) (args : List Arg) : Block := ⟨.ofOpcode opcode, args, none, none⟩

/-- The block with a flow inside it. -/
def withBody (block : Block) (body : Flow) : Block := { block with body := some body }

/-- The block with a second flow. -/
def withElse (block : Block) (orElse : Flow) : Block := { block with orElse := some orElse }

end Block

end BlockFlow
