import BlockFlow.Value
import BlockFlow.Text.Split

/-! # Program trees

  The output of the compiler: statements and expressions of a small
  imperative language with asynchronous closures.
-/

namespace BlockFlow

/-- How a function is called. -/
inductive CallMode where
  /-- An ordinary call. -/
  | plain
  /-- A call that is awaited. -/
  | suspend
  /-- A call that makes a new object. -/
  | construct
deriving DecidableEq, Inhabited, Repr

/-- Operators with two operands. -/
inductive BinaryOp where
  | add
  | sub
  | mul
  | div
  | mod
  | eq
  | lt
  | gt
  | or
  | and
  | xor
deriving DecidableEq, Inhabited, Repr

/-- Operators with one operand. -/
inductive UnaryOp where
  | not
  | neg
deriving DecidableEq, Inhabited, Repr

mutual

/-- An expression. -/
inductive Expr where
  /-- A literal value. -/
  | literal (v : Value)
  /-- A name. -/
  | ident (name : String)
  /-- An operator between two operands. -/
  | binary (op : BinaryOp) (left right : Expr)
  /-- An operator before its operand. -/
  | unary (op : UnaryOp) (arg : Expr)
  /-- A call. -/
  | call (callee : Expr) (args : List Expr) (mode : CallMode)
  /-- A property of an object. -/
  | member (object : Expr) (property : String)
  /-- A function with a body of its own. -/
  | closure (params : List String) (body : List Stmt) (isAsync : Bool)

/-- A statement. -/
inductive Stmt where
  /-- A conditional, with or without an alternative. -/
  | cond (test : Expr) (body : List Stmt) (orElse : Option (List Stmt))
  /-- A loop with a counter. -/
  | forLoop (init : Stmt) (test : Expr) (update : Stmt) (body : List Stmt)
  /-- A loop that tests before its body. -/
  | whileLoop (test : Expr) (body : List Stmt)
  /-- A loop that tests behind its body. -/
  | doWhile (body : List Stmt) (test : Expr)
  /-- A selection among cases. -/
  | switch (subject : Expr) (cases : List Stmt)
  /-- A case of a selection; without a test, the default. -/
  | case (test : Option Expr) (body : List Stmt)
  /-- Leaves the innermost loop or selection. -/
  | brk
  /-- Declares a variable. -/
  | bind (name : String) (init : Expr)
  /-- Assigns to a variable or property. -/
  | assign (target value : Expr)
  /-- Evaluates an expression. -/
  | expr (e : Expr)
  /-- Returns from a closure. -/
  | ret (e : Expr)

end

instance : Inhabited Expr := ⟨.literal .null⟩
instance : Inhabited Stmt := ⟨.brk⟩

/-- A program: a row of statements. -/
structure Program where
  /-- The statements. -/
  body : List Stmt
deriving Inhabited

/-- The sign of an operator with two operands. -/
def BinaryOp.symbol : BinaryOp → String
  | .add => "+"
  | .sub => "-"
  | .mul => "*"
  | .div => "/"
  | .mod => "%"
  | .eq => "=="
  | .lt => "<"
  | .gt => ">"
  | .or => "|"
  | .and => "&"
  | .xor => "^"

/-- The sign of an operator with one operand. -/
def UnaryOp.symbol : UnaryOp → String
  | .not => "!"
  | .neg => "-"

namespace Expr

/-! ## Dotted names -/

/-- The properties named by pieces of a dotted name, one after another. -/
def members (object : Expr) (pieces : List (List Char)) : Expr :=
  pieces.foldl (fun object piece => .member object (String.ofList piece)) object

/-- A dotted name: a variable and properties of it. -/
def path (dotted : String) : Expr :=
  let (root, pieces) := Text.segments '.' dotted.toList
  members (.ident (String.ofList root)) pieces

/-- The property of an object that a dotted name leads to. -/
def memberPath (object : Expr) (dotted : String) : Expr :=
  let (first, pieces) := Text.segments '.' dotted.toList
  members object (first :: pieces)

end Expr

end BlockFlow
