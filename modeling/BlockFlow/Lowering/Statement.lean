import BlockFlow.Lowering.Operand
import BlockFlow.Program.Render

/-! # Blocks as statements

  Every block becomes one statement, and the flows inside it become the
  statements inside that one. Which of the inner flows are looked at depends
  on the role of the block; the others are ignored, whatever they hold.

  The depth is the number of counted loops around a block, counted from the
  depth of the whole flow. It numbers the counter of a counted loop, and
  nothing else depends on it.
-/

namespace BlockFlow

/-- Why a flow cannot be compiled. -/
inductive CompileError where
  /-- A block has an opcode without meaning. -/
  | unsupported (opcode : String)
  /-- A change of a box is asked of something that cannot be assigned to. -/
  | invalidTarget (opcode : String) (target : Expr)

namespace CompileError

/-- The opcode at fault. -/
def opcode : CompileError → String
  | .unsupported opcode => opcode
  | .invalidTarget opcode _ => opcode

/-- The wording of an error. -/
def message : CompileError → String
  | .unsupported opcode =>
    "compile error: cannot process \"" ++ opcode ++ "\" block\n" ++
    "  hint: the opcode is neither a control construct nor listed in the lookup tables"
  | .invalidTarget opcode target =>
    "compile error: \"" ++ opcode ++ "\" cannot assign to " ++ target.render ++ "\n" ++
    "  hint: the first argument must be a box reference"

end CompileError

namespace Settings

/-! ## Statements from their parts -/

/-- Returns an attribute of the context. -/
def endMarker (settings : Settings) (name : String) : Stmt := .ret (settings.property name)

/-- A loop that counts from zero up to a bound, with the counter of its
    depth. -/
def countedLoop (settings : Settings) (depth : Depth) (bound : Expr) (body : List Stmt) : Stmt :=
  let counter := settings.conventions.counter depth
  .forLoop (.bind counter (.literal (.integer 0)))
    (.binary .lt (.ident counter) bound)
    (.assign (.ident counter) (.binary .add (.ident counter) (.literal (.integer 1))))
    body

/-- Changes a target by an amount. Only names and properties can be assigned
    to. -/
def changeBy (opcode : String) (target : Expr) (op : BinaryOp) (amount : Expr) :
    Except CompileError Stmt :=
  match target with
  | .ident _ | .member _ _ => .ok (.assign target (.binary op target amount))
  | _ => .error (.invalidTarget opcode target)

/-- Awaits a method of the context. -/
def awaitMethod (settings : Settings) (name : String) (args : List Expr) : Stmt :=
  .expr (.call (settings.context.memberPath name) args .suspend)

/-- The callback that a clamp passes on: its body, and then the end of the
    flow. -/
def callback (settings : Settings) (body : List Stmt) : Expr :=
  .closure [] (body ++ [settings.endMarker settings.conventions.endOfFlow]) true

/-- Prints values. -/
def printCall (settings : Settings) (args : List Expr) : Stmt :=
  .expr (.call (.path settings.conventions.log) args .plain)

/-- Awaits an action, which takes the context. -/
def performAction (settings : Settings) (name : String) : Stmt :=
  .expr (.call (.ident name) [settings.context] .suspend)

end Settings

/-! ## Blocks and flows -/

mutual

/-- The statement of a block at a depth. -/
def Block.toStmt (settings : Settings) (depth : Depth) : Block → Except CompileError Stmt
  | ⟨.store name, args, _, _⟩ => .ok (.bind name (settings.operand args 0))
  | ⟨.perform name, _, _, _⟩ => .ok (settings.performAction name)
  | ⟨.op opcode, args, body, orElse⟩ =>
    match settings.role opcode with
    | .construct .ifThen => do
      let body ← Flow.innerToStmts settings depth body
      return .cond (settings.operand args 0) body none
    | .construct .ifThenElse => do
      let body ← Flow.innerToStmts settings depth body
      let orElse ← Flow.innerToStmts settings depth orElse
      return .cond (settings.operand args 0) body (some orElse)
    -- The only construct that changes the depth.
    | .construct .repeatTimes => do
      let body ← Flow.innerToStmts settings (depth + 1) body
      return settings.countedLoop depth (settings.operand args 0) body
    | .construct .whileTest => do
      let body ← Flow.innerToStmts settings depth body
      return .whileLoop (settings.operand args 0) body
    | .construct .forever => do
      let body ← Flow.innerToStmts settings depth body
      return .whileLoop (.literal (.bool true)) body
    | .construct .untilTest => do
      let body ← Flow.innerToStmts settings depth body
      return .doWhile body (settings.operand args 0)
    | .construct .leave => .ok .brk
    | .construct .switch => do
      let cases ← Flow.innerToStmts settings depth body
      return .switch (settings.operand args 0) cases
    -- A case leaves the selection at its end, the default does not.
    | .construct .case => do
      let body ← Flow.innerToStmts settings depth body
      return .case (some (settings.operand args 0)) (body ++ [.brk])
    | .construct .defaultCase => do
      let body ← Flow.innerToStmts settings depth body
      return .case none body
    | .construct .increment =>
      Settings.changeBy opcode (settings.operand args 0) .add (settings.operand args 1)
    | .construct .incrementOne =>
      Settings.changeBy opcode (settings.operand args 0) .add (.literal (.integer 1))
    | .construct .decrementOne =>
      Settings.changeBy opcode (settings.operand args 0) .sub (.literal (.integer 1))
    | .setter name => .ok (settings.assignProperty name args)
    | .method name false => .ok (settings.awaitMethod name (Arg.toExprs settings args))
    | .method name true => do
      let body ← Flow.innerToStmts settings depth body
      return settings.awaitMethod name (Arg.toExprs settings args ++ [settings.callback body])
    | .print => .ok (settings.printCall (Arg.toExprs settings args))
    | .unknown => .error (.unsupported opcode)

/-- The statements of a flow that may be missing. -/
def Flow.innerToStmts (settings : Settings) (depth : Depth) :
    Option (List Block) → Except CompileError (List Stmt)
  | none => .ok []
  | some flow => Flow.toStmts settings depth flow

/-- The statements of a flow, one for each block in order. -/
def Flow.toStmts (settings : Settings) (depth : Depth) :
    List Block → Except CompileError (List Stmt)
  | [] => .ok []
  | block :: blocks => do
    let first ← block.toStmt settings depth
    let rest ← Flow.toStmts settings depth blocks
    return first :: rest

end

end BlockFlow
