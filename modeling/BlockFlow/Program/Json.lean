import BlockFlow.Json.Reader
import BlockFlow.Json.Writer
import BlockFlow.Program.Basic

/-! # Programs as JSON

  A variant without content is its name. Any other variant is an object with
  one member, named for the variant, which holds the content: a value, or an
  object of fields.

  `toJson` gives the one form in which programs are written. The readers
  accept more (see `Json.Reader`): fields in any order or as a list, unknown
  fields, optional fields left out, `null` for no content. They are told how
  many containers there is still room for, and that number decreases with
  every container, so it also shows that they end.
-/

namespace BlockFlow

open Json (Reader Fields Variant)

/-! ## Names -/

/-- The name of a call mode. -/
def CallMode.name : CallMode → String
  | .plain => "Plain"
  | .suspend => "Suspend"
  | .construct => "Construct"

/-- All call modes. -/
def CallMode.all : List CallMode := [.plain, .suspend, .construct]

/-- The name of an operator with two operands. -/
def BinaryOp.name : BinaryOp → String
  | .add => "Add"
  | .sub => "Sub"
  | .mul => "Mul"
  | .div => "Div"
  | .mod => "Mod"
  | .eq => "Eq"
  | .lt => "Lt"
  | .gt => "Gt"
  | .or => "Or"
  | .and => "And"
  | .xor => "Xor"

/-- All operators with two operands. -/
def BinaryOp.all : List BinaryOp :=
  [.add, .sub, .mul, .div, .mod, .eq, .lt, .gt, .or, .and, .xor]

/-- The name of an operator with one operand. -/
def UnaryOp.name : UnaryOp → String
  | .not => "Not"
  | .neg => "Neg"

/-- All operators with one operand. -/
def UnaryOp.all : List UnaryOp := [.not, .neg]

/-! ## Writing -/

/-- A variant with its content. -/
def Json.tagged (name : String) (content : Json) : Json := .object [(name, content)]

/-- A scalar value as JSON. A double that is not finite is lost. -/
def Value.toJson : Value → Json
  | .null => .string "Null"
  | .integer n => .tagged "Integer" (.number (.ofInt64 n))
  | .float x => .tagged "Float" (.ofDouble x)
  | .string s => .tagged "String" (.string s)
  | .bool b => .tagged "Bool" (.bool b)

mutual

/-- An expression as JSON. -/
def Expr.toJson : Expr → Json
  | .literal v => .tagged "Literal" v.toJson
  | .ident name => .tagged "Ident" (.string name)
  | .binary op left right =>
    .tagged "Binary"
      (.object [("op", .string op.name), ("left", left.toJson), ("right", right.toJson)])
  | .unary op arg => .tagged "Unary" (.object [("op", .string op.name), ("arg", arg.toJson)])
  | .call callee args mode =>
    .tagged "Call"
      (.object [("callee", callee.toJson), ("args", .list (Expr.listToJson args)),
        ("mode", .string mode.name)])
  | .member object property =>
    .tagged "Member" (.object [("object", object.toJson), ("property", .string property)])
  | .closure params body isAsync =>
    .tagged "Closure"
      (.object [("params", .list (params.map Json.string)), ("body", .list (Stmt.listToJson body)),
        ("is_async", .bool isAsync)])

/-- Expressions as JSON. -/
def Expr.listToJson : List Expr → List Json
  | [] => []
  | e :: es => e.toJson :: Expr.listToJson es

/-- A statement as JSON. -/
def Stmt.toJson : Stmt → Json
  | .cond test body none =>
    .tagged "If"
      (.object [("test", test.toJson), ("consequent", .list (Stmt.listToJson body)),
        ("alternate", .null)])
  | .cond test body (some orElse) =>
    .tagged "If"
      (.object [("test", test.toJson), ("consequent", .list (Stmt.listToJson body)),
        ("alternate", .list (Stmt.listToJson orElse))])
  | .forLoop init test update body =>
    .tagged "For"
      (.object [("init", init.toJson), ("test", test.toJson), ("update", update.toJson),
        ("body", .list (Stmt.listToJson body))])
  | .whileLoop test body =>
    .tagged "While" (.object [("test", test.toJson), ("body", .list (Stmt.listToJson body))])
  | .doWhile body test =>
    .tagged "DoWhile" (.object [("body", .list (Stmt.listToJson body)), ("test", test.toJson)])
  | .switch subject cases =>
    .tagged "Switch"
      (.object [("discriminant", subject.toJson), ("cases", .list (Stmt.listToJson cases))])
  | .case none body =>
    .tagged "Case" (.object [("test", .null), ("consequent", .list (Stmt.listToJson body))])
  | .case (some test) body =>
    .tagged "Case" (.object [("test", test.toJson), ("consequent", .list (Stmt.listToJson body))])
  | .brk => .string "Break"
  | .bind name init => .tagged "Let" (.object [("name", .string name), ("init", init.toJson)])
  | .assign target value =>
    .tagged "Assign" (.object [("target", target.toJson), ("value", value.toJson)])
  | .expr e => .tagged "Expr" e.toJson
  | .ret e => .tagged "Return" e.toJson

/-- Statements as JSON. -/
def Stmt.listToJson : List Stmt → List Json
  | [] => []
  | s :: ss => s.toJson :: Stmt.listToJson ss

end

/-- A program as JSON. -/
def Program.toJson (p : Program) : Json := .object [("body", .list (Stmt.listToJson p.body))]

/-! ## Reading -/

/-- The variants without content of the given names. -/
def unitVariants {α : Type} (all : List α) (name : α → String) : List (Variant α) :=
  all.map fun a => ⟨name a, .unit a⟩

/-- The forms of a scalar value. -/
def Value.variants : List (Variant Value) :=
  [⟨"Null", .unit .null⟩,
   ⟨"Integer", .single fun node => (Json.int64 node).map .integer⟩,
   ⟨"Float", .single fun node => (Json.double node).map .float⟩,
   ⟨"String", .single fun node => (Json.text node).map .string⟩,
   ⟨"Bool", .single fun node => (Json.flag node).map .bool⟩]

/-- Reads a scalar value, with room for `n` containers. -/
def Value.read (n : Nat) : Reader Value := Json.choice Value.variants (decide (0 < n))

/-- The readers for the fields of a node. -/
structure Parts where
  /-- Whether there is room for a container in a field. -/
  room : Bool
  /-- Reads an expression. -/
  expr : Reader Expr
  /-- Reads a statement. -/
  stmt : Reader Stmt
  /-- Reads a list of expressions. -/
  exprs : Reader (List Expr)
  /-- Reads a list of statements. -/
  stmts : Reader (List Stmt)

namespace Parts

/-- Reads an operator with two operands. -/
def binaryOp (parts : Parts) : Reader BinaryOp :=
  Json.choice (unitVariants BinaryOp.all BinaryOp.name) parts.room

/-- Reads an operator with one operand. -/
def unaryOp (parts : Parts) : Reader UnaryOp :=
  Json.choice (unitVariants UnaryOp.all UnaryOp.name) parts.room

/-- Reads a call mode. -/
def mode (parts : Parts) : Reader CallMode :=
  Json.choice (unitVariants CallMode.all CallMode.name) parts.room

/-- Reads a list of names. -/
def names (parts : Parts) : Reader (List String) :=
  Json.listOf (if parts.room then some Json.text else none)

end Parts

/-- A variant with fields, made from the values that were read for them. -/
def withFields {α γ : Type} (type name : String) (inside : Option Parts)
    (fields : Parts → Fields γ) (make : γ → α) : Variant α :=
  ⟨name, .fields fun node =>
    (Json.record ("struct variant " ++ type ++ "::" ++ name) (inside.map fields) node).map make⟩

/-- The forms of an expression, from the readers for its parts. -/
def Expr.variants (value : Reader Value) (inside : Option Parts) : List (Variant Expr) :=
  [⟨"Literal", .single fun node => (value node).map .literal⟩,
   ⟨"Ident", .single fun node => (Json.text node).map .ident⟩,
   withFields "Expr" "Binary" inside
    (fun parts =>
      .required "op" parts.binaryOp <|
      .required "left" parts.expr <|
      .required "right" parts.expr .nil)
    fun (op, left, right, _) => .binary op left right,
   withFields "Expr" "Unary" inside
    (fun parts =>
      .required "op" parts.unaryOp <|
      .required "arg" parts.expr .nil)
    fun (op, arg, _) => .unary op arg,
   withFields "Expr" "Call" inside
    (fun parts =>
      .required "callee" parts.expr <|
      .required "args" parts.exprs <|
      .required "mode" parts.mode .nil)
    fun (callee, args, mode, _) => .call callee args mode,
   withFields "Expr" "Member" inside
    (fun parts =>
      .required "object" parts.expr <|
      .required "property" Json.text .nil)
    fun (object, property, _) => .member object property,
   withFields "Expr" "Closure" inside
    (fun parts =>
      .required "params" parts.names <|
      .required "body" parts.stmts <|
      .required "is_async" Json.flag .nil)
    fun (params, body, isAsync, _) => .closure params body isAsync]

/-- The forms of a statement, from the readers for its parts. -/
def Stmt.variants (expr : Reader Expr) (inside : Option Parts) : List (Variant Stmt) :=
  [withFields "Stmt" "If" inside
    (fun parts =>
      .required "test" parts.expr <|
      .required "consequent" parts.stmts <|
      .maybe "alternate" parts.stmts .nil)
    fun (test, body, orElse, _) => .cond test body orElse,
   withFields "Stmt" "For" inside
    (fun parts =>
      .required "init" parts.stmt <|
      .required "test" parts.expr <|
      .required "update" parts.stmt <|
      .required "body" parts.stmts .nil)
    fun (init, test, update, body, _) => .forLoop init test update body,
   withFields "Stmt" "While" inside
    (fun parts =>
      .required "test" parts.expr <|
      .required "body" parts.stmts .nil)
    fun (test, body, _) => .whileLoop test body,
   withFields "Stmt" "DoWhile" inside
    (fun parts =>
      .required "body" parts.stmts <|
      .required "test" parts.expr .nil)
    fun (body, test, _) => .doWhile body test,
   withFields "Stmt" "Switch" inside
    (fun parts =>
      .required "discriminant" parts.expr <|
      .required "cases" parts.stmts .nil)
    fun (subject, cases, _) => .switch subject cases,
   withFields "Stmt" "Case" inside
    (fun parts =>
      .maybe "test" parts.expr <|
      .required "consequent" parts.stmts .nil)
    fun (test, body, _) => .case test body,
   ⟨"Break", .unit .brk⟩,
   withFields "Stmt" "Let" inside
    (fun parts =>
      .required "name" Json.text <|
      .required "init" parts.expr .nil)
    fun (name, init, _) => .bind name init,
   withFields "Stmt" "Assign" inside
    (fun parts =>
      .required "target" parts.expr <|
      .required "value" parts.expr .nil)
    fun (target, value, _) => .assign target value,
   ⟨"Expr", .single fun node => (expr node).map .expr⟩,
   ⟨"Return", .single fun node => (expr node).map .ret⟩]

mutual

/-- Reads an expression, with room for so many containers. -/
def Expr.read : Nat → Reader Expr
  | 0, node => Json.choice (Expr.variants (Value.read 0) none) false node
  | 1, node => Json.choice (Expr.variants (Value.read 0) none) true node
  -- A variant with fields takes two containers: its own, and that of its fields.
  | n + 2, node =>
    Json.choice
      (Expr.variants (Value.read (n + 1))
        (some ⟨decide (0 < n), Expr.read n, Stmt.read n, Expr.readList n, Stmt.readList n⟩))
      true node

/-- Reads a list of expressions, with room for so many containers. -/
def Expr.readList : Nat → Reader (List Expr)
  | 0, node => Json.listOf none node
  | n + 1, node => Json.listOf (some (Expr.read n)) node

/-- Reads a statement, with room for so many containers. -/
def Stmt.read : Nat → Reader Stmt
  | 0, node => Json.choice (Stmt.variants (fun _ => .error (.malformed .tooDeep)) none) false node
  | 1, node => Json.choice (Stmt.variants (Expr.read 0) none) true node
  | n + 2, node =>
    Json.choice
      (Stmt.variants (Expr.read (n + 1))
        (some ⟨decide (0 < n), Expr.read n, Stmt.read n, Expr.readList n, Stmt.readList n⟩))
      true node

/-- Reads a list of statements, with room for so many containers. -/
def Stmt.readList : Nat → Reader (List Stmt)
  | 0, node => Json.listOf none node
  | n + 1, node => Json.listOf (some (Stmt.read n)) node

end

/-- The fields of a program. -/
def Program.fields (n : Nat) : Fields (List Stmt × Unit) :=
  .required "body" (Stmt.readList n) .nil

/-- Reads a program, with room for so many containers. -/
def Program.read (n : Nat) : Reader Program := fun node => do
  let inside := match n with
    | 0 => none
    | n + 1 => some (Program.fields n)
  let (body, _) ← Json.record "struct Program" inside node
  return ⟨body⟩

end BlockFlow
