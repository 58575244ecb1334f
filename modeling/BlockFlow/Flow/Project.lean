import BlockFlow.Entries
import BlockFlow.Flow.Decode

/-! # Projects

  A project is a bundle of named actions and of mice, each a flow of its own.

  It is written as an object with the members `actions` and `mice`, both of
  which may be missing, or as a list of the two in that order. Its shape is
  checked before any flow is looked at.
-/

namespace BlockFlow

/-- A bundle of flows. -/
structure Project where
  /-- The actions by name, in order. -/
  actions : Entries Flow
  /-- The flow of each mouse. -/
  mice : List Flow

/-- A project whose flows are still JSON values. -/
structure Project.Outer where
  /-- The actions by name. -/
  actions : List (String × Json) := []
  /-- The mice. -/
  mice : List Json := []

/-- What a JSON value is when something else is wanted. -/
def Json.found : Json → Json.Found
  | .null => .null
  | .bool b => .bool b
  | .number n => .number n
  | .string s => .string s
  | .list _ => .list
  | .object _ => .object

namespace Project

/-- The actions as they stand. -/
def actionsOfJson : Json → Except Json.Problem (List (String × Json))
  | .object members => .ok members
  | other => .error (.wrongType other.found "a map")

/-- The mice as they stand. -/
def miceOfJson : Json → Except Json.Problem (List Json)
  | .list items => .ok items
  | other => .error (.wrongType other.found "a sequence")

namespace Outer

/-- Takes in the members of an object in their order. -/
def ofMembers (outer : Outer) : List (String × Json) → Except Json.Problem Outer
  | [] => .ok outer
  | (key, value) :: members => do
    if key = "actions" then
      let actions ← actionsOfJson value
      ofMembers { outer with actions } members
    else if key = "mice" then
      let mice ← miceOfJson value
      ofMembers { outer with mice } members
    else ofMembers outer members

/-- The shape of a project, its flows not yet looked at. -/
def ofJson : Json → Except Json.Problem Outer
  | .object members => ofMembers {} members
  | .list [] => .ok {}
  | .list [actions] => do
    let actions ← actionsOfJson actions
    return { actions }
  | .list (actions :: mice :: more) => do
    let actions ← actionsOfJson actions
    let mice ← miceOfJson mice
    if more.isEmpty then return { actions, mice }
    else throw (.wrongLength (more.length + 2) "fewer elements in array")
  | other => .error (.wrongType other.found "struct RawProject")

end Outer

/-- The flows of named JSON values. -/
def namedFlows : List (String × Json) → Except FlowError (Entries Flow)
  | [] => .ok []
  | (name, value) :: rest => do
    let flow ← Flow.ofJson value
    let flows ← namedFlows rest
    return (name, flow) :: flows

/-- The flows of JSON values. -/
def flows : List Json → Except FlowError (List Flow)
  | [] => .ok []
  | value :: rest => do
    let flow ← Flow.ofJson value
    let others ← flows rest
    return flow :: others

/-- The project that a JSON value stands for. -/
def ofJson (j : Json) : Except FlowError Project := do
  let outer ← (Outer.ofJson j).mapError .badProject
  let actions ← namedFlows outer.actions
  let mice ← flows outer.mice
  return { actions, mice }

end Project

end BlockFlow
