import BlockFlow.Flow.Project
import BlockFlow.Lowering.Statement

/-! # Whole programs

  A flow becomes the body of an asynchronous closure that takes the context
  and returns an end marker. An action declares such a closure under its
  name; a mouse is made with one. A program ends by starting all mice.
-/

namespace BlockFlow

namespace Flow

/-- A flow as a closure that takes the context and returns a marker. -/
def toClosure (settings : Settings) (marker : String) (flow : Flow) :
    Except CompileError Expr := do
  let body ← Flow.toStmts settings 0 flow
  return .closure [settings.conventions.context] (body ++ [settings.endMarker marker]) true

/-- The declaration of an action. -/
def toAction (settings : Settings) (name : String) (flow : Flow) : Except CompileError Stmt := do
  let closure ← toClosure settings settings.conventions.endOfFlow flow
  return .bind name closure

/-- The statement that makes a mouse. -/
def toMouse (settings : Settings) (flow : Flow) : Except CompileError Stmt := do
  let closure ← toClosure settings settings.conventions.endOfProgram flow
  return .expr (.call (.path settings.conventions.entity) [closure] .construct)

end Flow

/-- The statement that starts all mice. -/
def Settings.start (settings : Settings) : Stmt :=
  .expr (.call (.path settings.conventions.runner) [] .plain)

namespace Program

/-- The declarations of named actions, in order. -/
def actions (settings : Settings) : Entries Flow → Except CompileError (List Stmt)
  | [] => .ok []
  | (name, flow) :: rest => do
    let first ← flow.toAction settings name
    let others ← actions settings rest
    return first :: others

/-- The statements that make mice, in order. -/
def mice (settings : Settings) : List Flow → Except CompileError (List Stmt)
  | [] => .ok []
  | flow :: rest => do
    let first ← flow.toMouse settings
    let others ← mice settings rest
    return first :: others

/-- The program that declares one action. -/
def ofAction (settings : Settings) (name : String) (flow : Flow) :
    Except CompileError Program := do
  let action ← flow.toAction settings name
  return ⟨[action]⟩

/-- The program of one mouse. -/
def ofFlow (settings : Settings) (flow : Flow) : Except CompileError Program := do
  let mouse ← flow.toMouse settings
  return ⟨[mouse, settings.start]⟩

/-- The program of a project: its actions, its mice, and the start. -/
def ofProject (settings : Settings) (project : Project) : Except CompileError Program := do
  let actions ← actions settings project.actions
  let mice ← mice settings project.mice
  return ⟨actions ++ mice ++ [settings.start]⟩

end Program

end BlockFlow
