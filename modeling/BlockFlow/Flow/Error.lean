import BlockFlow.Json.Writer
import BlockFlow.Json.Problem

/-! # Errors of flow documents

  Why a JSON value is no flow or no project. The value at fault is kept, and
  shown as compact JSON text.
-/

namespace BlockFlow

/-- Why a JSON value is no flow or no project. -/
inductive FlowError where
  /-- A flow is neither a list nor `null`. -/
  | notAFlow (found : Json)
  /-- A block is not a list. -/
  | notABlock (found : Json)
  /-- A block is an empty list. -/
  | missingOpcode
  /-- The first item of a block is not a string. -/
  | opcodeNotString (found : Json)
  /-- The arguments of an operation are neither a list nor `null`. -/
  | argsNotList (opcode : String) (found : Json)
  /-- An argument is an object, or a list that does not begin with a string. -/
  | badArg (opcode : String) (found : Json)
  /-- A project does not have the shape of one. -/
  | badProject (problem : Json.Problem)

namespace FlowError

/-- The wording of an error. -/
def message : FlowError → String
  | .notAFlow found => "flow error: expected a list of blocks, got " ++ found.compact
  | .notABlock found => "flow error: expected a block tuple, got " ++ found.compact
  | .missingOpcode => "flow error: block has no opcode"
  | .opcodeNotString found => "flow error: opcode must be a string, got " ++ found.compact
  | .argsNotList opcode found =>
    "flow error: arguments of '" ++ opcode ++ "' must be a list, got " ++ found.compact
  | .badArg opcode found =>
    "flow error: unsupported argument in '" ++ opcode ++ "': " ++ found.compact
  | .badProject problem => "flow error: invalid project: " ++ problem.message

end FlowError

end BlockFlow
