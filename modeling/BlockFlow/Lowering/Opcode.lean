import BlockFlow.Program.Basic
import BlockFlow.Settings.Basic

/-! # Opcodes

  What an opcode means to the compiler.

  - In an argument, an `Operator` becomes an operator or a mathematical
    function.
  - As the head of a block, a `Construct` becomes a control statement or a
    change of a box. Constructs are known by name, whatever the lookup tables
    say. Every other opcode has its `Role` from the tables.
-/

namespace BlockFlow

/-! ## Arguments -/

/-- The meaning of an opcode in an argument. -/
inductive Operator where
  /-- An operator with two operands. -/
  | binary (op : BinaryOp)
  /-- An operator with one operand. -/
  | unary (op : UnaryOp)
  /-- A function with a dotted name, for any number of operands. -/
  | function (path : String)
deriving DecidableEq

/-- The opcodes that are operators. -/
def Operator.table : Entries Operator :=
  [("plus", .binary .add), ("minus", .binary .sub), ("multiply", .binary .mul),
   ("divide", .binary .div), ("mod", .binary .mod), ("equal", .binary .eq),
   ("less", .binary .lt), ("greater", .binary .gt), ("or", .binary .or),
   ("and", .binary .and), ("xor", .binary .xor), ("not", .unary .not), ("neg", .unary .neg),
   ("abs", .function "Math.abs"), ("sqrt", .function "Math.sqrt"),
   ("power", .function "Math.pow"), ("int", .function "Math.floor")]

/-- The operator of an opcode. -/
def Operator.ofOpcode? (opcode : String) : Option Operator := Entries.get? Operator.table opcode

/-! ## Blocks -/

/-- A block that the compiler knows by its name. -/
inductive Construct where
  /-- A conditional. -/
  | ifThen
  /-- A conditional with an alternative. -/
  | ifThenElse
  /-- A counted loop. -/
  | repeatTimes
  /-- A loop that tests first. -/
  | whileTest
  /-- A loop without end. -/
  | forever
  /-- A loop that tests last. -/
  | untilTest
  /-- Leaves a loop. -/
  | leave
  /-- A selection. -/
  | switch
  /-- A case of a selection. -/
  | case
  /-- The default of a selection. -/
  | defaultCase
  /-- Adds to a box. -/
  | increment
  /-- Adds one to a box. -/
  | incrementOne
  /-- Subtracts one from a box. -/
  | decrementOne
deriving DecidableEq

/-- The opcodes that are constructs. -/
def Construct.table : Entries Construct :=
  [("if", .ifThen), ("ifthenelse", .ifThenElse), ("repeat", .repeatTimes),
   ("while", .whileTest), ("forever", .forever), ("until", .untilTest), ("break", .leave),
   ("switch", .switch), ("case", .case), ("defaultcase", .defaultCase),
   ("increment", .increment), ("incrementOne", .incrementOne),
   ("decrementOne", .decrementOne)]

/-- The construct of an opcode. -/
def Construct.ofOpcode? (opcode : String) : Option Construct := Entries.get? Construct.table opcode

/-- The meaning of an opcode as the head of a block. -/
inductive Role where
  /-- A block known by its name. -/
  | construct (construct : Construct)
  /-- Assigns to an attribute of the context. -/
  | setter (property : String)
  /-- Calls a method of the context; a clamp passes its flow as a callback. -/
  | method (name : String) (clamp : Bool)
  /-- Prints its arguments. -/
  | print
  /-- No meaning. -/
  | unknown
deriving DecidableEq

/-- The role of an opcode: constructs before setters before methods before
    printing. -/
def Settings.role (settings : Settings) (opcode : String) : Role :=
  match Construct.ofOpcode? opcode with
  | some construct => .construct construct
  | none =>
    match settings.tables.setter? opcode with
    | some property => .setter property
    | none =>
      match settings.tables.method? opcode with
      | some name => .method name (settings.tables.isClamp opcode)
      | none => if opcode = "print" then .print else .unknown

end BlockFlow
