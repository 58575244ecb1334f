import BlockFlow.Flow.Basic
import BlockFlow.Flow.Error

/-! # Flows from JSON

  A flow is a list of blocks, or `null` for none. A block is a list: its
  opcode, then up to three slots with its arguments, its body and its second
  flow. A slot that is missing or `null` is empty, and anything behind the
  last slot is ignored. An argument is a scalar, or a list with an opcode and
  a slot with arguments of its own.

  The first error from left to right is reported, the parts of a block in the
  order in which they stand.
-/

namespace BlockFlow

mutual

/-- The argument that a JSON value stands for in an operation `owner`. -/
def Arg.ofJson (owner : String) : Json → Except FlowError Arg
  | .string s => .ok (.ofText s)
  | .list (.string opcode :: slots) => do
    let args ← Arg.slotOfJson opcode slots
    return .apply opcode args
  | .list items => .error (.badArg owner (.list items))
  | found =>
    match Value.ofJson? found with
    | some v => .ok (.ofValue v)
    | none => .error (.badArg owner found)

/-- The arguments of an operation, from the slots behind its opcode. -/
def Arg.slotOfJson (opcode : String) : List Json → Except FlowError (List Arg)
  | [] => .ok []
  | .null :: _ => .ok []
  | .list args :: _ => Arg.listOfJson opcode args
  | found :: _ => .error (.argsNotList opcode found)

/-- The arguments that a list of JSON values stands for. -/
def Arg.listOfJson (owner : String) : List Json → Except FlowError (List Arg)
  | [] => .ok []
  | item :: items => do
    let first ← Arg.ofJson owner item
    let rest ← Arg.listOfJson owner items
    return first :: rest

end

mutual

/-- The flow that a JSON value stands for. -/
def Flow.ofJson : Json → Except FlowError Flow
  | .null => .ok []
  | .list items => Flow.ofItems items
  | found => .error (.notAFlow found)

/-- The blocks that a list of JSON values stands for. -/
def Flow.ofItems : List Json → Except FlowError Flow
  | [] => .ok []
  | item :: items => do
    let first ← Block.ofJson item
    let rest ← Flow.ofItems items
    return first :: rest

/-- The block that a JSON value stands for. -/
def Block.ofJson : Json → Except FlowError Block
  | .list [] => .error .missingOpcode
  | .list (.string opcode :: slots) => do
    let args ← Arg.slotOfJson opcode slots
    let (body, orElse) ← Block.flowsOfJson slots
    return ⟨.ofOpcode opcode, args, body, orElse⟩
  | .list (found :: _) => .error (.opcodeNotString found)
  | found => .error (.notABlock found)

/-- The two inner flows of a block, from the slots behind its opcode. -/
def Block.flowsOfJson : List Json → Except FlowError (Option Flow × Option Flow)
  | _ :: body :: orElse :: _ => do
    let body ← Flow.innerOfJson body
    let orElse ← Flow.innerOfJson orElse
    return (body, orElse)
  | [_, body] => do
    let body ← Flow.innerOfJson body
    return (body, none)
  | _ => .ok (none, none)

/-- The inner flow in a slot. -/
def Flow.innerOfJson : Json → Except FlowError (Option Flow)
  | .null => .ok none
  | .list items => do
    let flow ← Flow.ofItems items
    return some flow
  | found => .error (.notAFlow found)

end

end BlockFlow
