import BlockFlow.Flow.Basic
import BlockFlow.Lowering.Opcode

/-! # Arguments as expressions

  Every argument becomes an expression; none can fail. An operand that is not
  there counts as null.
-/

namespace BlockFlow

namespace Settings

/-- The context as an expression. -/
def context (settings : Settings) : Expr := .ident settings.conventions.context

/-- An attribute of the context. -/
def property (settings : Settings) (name : String) : Expr := .member settings.context name

end Settings

/-- The operand at a position. -/
def operandAt (operands : List Expr) (n : Nat) : Expr := operands.getD n (.literal .null)

/-- An operator applied to operands. -/
def Operator.applyTo (operands : List Expr) : Operator → Expr
  | .binary op => .binary op (operandAt operands 0) (operandAt operands 1)
  | .unary op => .unary op (operandAt operands 0)
  | .function path => .call (.path path) operands .plain

/-- An opcode applied to operands: an attribute if it is a getter, else an
    operator, else a call of the function of that name. -/
def Settings.applyOpcode (settings : Settings) (opcode : String) (operands : List Expr) : Expr :=
  match settings.tables.getter? opcode with
  | some name => settings.property name
  | none =>
    match Operator.ofOpcode? opcode with
    | some operator => operator.applyTo operands
    | none => .call (.ident opcode) operands .plain

mutual

/-- The expression of an argument. -/
def Arg.toExpr (settings : Settings) : Arg → Expr
  | .null => .literal .null
  | .literal v => .literal v
  | .box name => .ident name
  | .apply opcode args => settings.applyOpcode opcode (Arg.toExprs settings args)

/-- The expressions of arguments. -/
def Arg.toExprs (settings : Settings) : List Arg → List Expr
  | [] => []
  | arg :: args => arg.toExpr settings :: Arg.toExprs settings args

end

/-- The expression of the argument at a position. -/
def Settings.operand (settings : Settings) (args : List Arg) (n : Nat) : Expr :=
  operandAt (Arg.toExprs settings args) n

/-- Assigns the first argument to an attribute of the context. -/
def Settings.assignProperty (settings : Settings) (name : String) (args : List Arg) : Stmt :=
  .assign (settings.property name) (settings.operand args 0)

end BlockFlow
