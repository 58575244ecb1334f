import BlockFlow.Proofs.Lowering.Reached

/-! # What arguments become

    Arguments bring names into a program: boxes, and opcodes that are neither
    getters nor operators. Everything else in a compiled argument is known
    beforehand.

    - `Flow.names` lists the names of a flow, at every depth and also in inner
      flows that are not compiled.
    - `Expr.IsValue` says which expressions arguments become
      (`Arg.isValue_toExpr`): no closure, no call that is awaited, and no name
      but those of the arguments.
    - `Expr.IsChain` is a dotted name: properties of a variable. -/

namespace BlockFlow

/-! ## Section 1: The names of a flow -/

mutual

/-- The names in an argument: its boxes and the opcodes it applies. -/
def Arg.names : Arg → List String
  | .null | .literal _ => []
  | .box name => [name]
  | .apply opcode args => opcode :: Arg.listNames args

/-- The names in arguments. -/
def Arg.listNames : List Arg → List String
  | [] => []
  | arg :: args => arg.names ++ Arg.listNames args

end

/-- The box or the action that a head names. -/
def Head.names : Head → List String
  | .op _ => []
  | .store name | .perform name => [name]

/-- The names in a block, inner flows apart. -/
def Block.ownNames (block : Block) : List String := block.head.names ++ Arg.listNames block.args

mutual

/-- The names in a block and in both flows inside it. -/
def Block.names : Block → List String
  | ⟨head, args, body, orElse⟩ =>
    Block.ownNames ⟨head, args, body, orElse⟩ ++ Flow.innerNames body ++ Flow.innerNames orElse

/-- The names in a flow that may be missing. -/
def Flow.innerNames : Option (List Block) → List String
  | none => []
  | some flow => Flow.names flow

/-- The names in a flow: boxes, actions, and opcodes of arguments. -/
def Flow.names : List Block → List String
  | [] => []
  | block :: blocks => block.names ++ Flow.names blocks

end

mutual

theorem Block.ownNames_subset_of_mem_reached (settings : Settings) :
    ∀ (block : Block) {inner : Block}, inner ∈ block.reached settings →
      inner.ownNames ⊆ block.names
  | ⟨head, args, body, orElse⟩, inner, h => by
    have hbody := @Flow.ownNames_subset_of_mem_innerReached settings body inner
    have helse := @Flow.ownNames_subset_of_mem_innerReached settings orElse inner
    rw [Block.reached] at h
    rw [Block.names]
    rcases List.mem_cons.mp h with rfl | h
    · intro name hname
      simp [hname]
    · -- Whichever of the inner flows are reached, their names are counted.
      split at h
      · simp at h
      · intro name hname
        simp [hbody h hname]
      · intro name hname
        rcases List.mem_append.mp h with h | h
        · simp [hbody h hname]
        · simp [helse h hname]

theorem Flow.ownNames_subset_of_mem_innerReached (settings : Settings) :
    ∀ (flow : Option (List Block)) {block : Block}, block ∈ Flow.innerReached settings flow →
      block.ownNames ⊆ Flow.innerNames flow
  | none, _, h => by simp [Flow.innerReached] at h
  | some flow, _, h => Flow.ownNames_subset_of_mem_reached settings flow h

/-- The names of a reached block are names of the flow. -/
theorem Flow.ownNames_subset_of_mem_reached (settings : Settings) :
    ∀ (flow : List Block) {block : Block}, block ∈ Flow.reached settings flow →
      block.ownNames ⊆ Flow.names flow
  | [], _, h => by simp [Flow.reached] at h
  | first :: blocks, block, h => by
    intro name hname
    rw [Flow.names]
    rw [Flow.reached] at h
    rcases List.mem_append.mp h with h | h
    · exact List.mem_append_left _ (first.ownNames_subset_of_mem_reached settings h hname)
    · exact List.mem_append_right _ (Flow.ownNames_subset_of_mem_reached settings blocks h hname)

end

/-! ## Section 2: Dotted names -/

namespace Text

/-- The part of a dotted name before its first dot. -/
def beforeDot (dotted : String) : String := String.ofList (dotted.toList.takeWhile (· ≠ '.'))

theorem segments_fst (mark : Char) (cs : List Char) :
    (segments mark cs).1 = cs.takeWhile (· ≠ mark) := by
  induction cs with
  | nil => rfl
  | cons c cs ih =>
    by_cases hc : c = mark
    · subst hc
      simp
    · simp [segments_cons hc, hc, ih]

end Text

namespace Expr

/-- Properties of properties of a variable with a known name. -/
inductive IsChain (known : String → Prop) : Expr → Prop where
  | ident {name : String} (h : known name) : IsChain known (.ident name)
  | member {object : Expr} {property : String} (h : IsChain known object) :
      IsChain known (.member object property)

variable {known : String → Prop}

theorem IsChain.members {object : Expr} (h : IsChain known object) (pieces : List (List Char)) :
    IsChain known (members object pieces) := by
  induction pieces generalizing object with
  | nil => exact h
  | cons piece pieces ih => exact ih h.member

theorem IsChain.memberPath {object : Expr} (h : IsChain known object) (dotted : String) :
    IsChain known (object.memberPath dotted) :=
  h.members _

/-- The variable of a dotted name is what stands before its first dot. -/
theorem isChain_path {dotted : String} (h : known (Text.beforeDot dotted)) :
    IsChain known (.path dotted) := by
  have hroot : known (String.ofList (Text.segments '.' dotted.toList).1) := by
    rw [Text.segments_fst]
    exact h
  exact (IsChain.ident hroot).members _

end Expr

/-! ## Section 3: Values -/

/-- The mathematical functions that operators call. -/
def mathFunctions : List String := ["Math.abs", "Math.sqrt", "Math.pow", "Math.floor"]

/-- The dotted name of an operator that is a function. -/
def Operator.path? : Operator → Option String
  | .function path => some path
  | .binary _ | .unary _ => none

theorem Operator.mem_mathFunctions {opcode path : String}
    (h : Operator.ofOpcode? opcode = some (.function path)) : path ∈ mathFunctions := by
  have hmem : (opcode, Operator.function path) ∈ Operator.table := Entries.mem_of_get?_eq_some h
  have hall : ∀ entry ∈ Operator.table, ∀ path ∈ Operator.path? entry.2, path ∈ mathFunctions := by
    decide
  exact hall _ hmem path rfl

/-- **Values**: the expressions that arguments become, over known names. -/
inductive Expr.IsValue (settings : Settings) (known : String → Prop) : Expr → Prop where
  | literal (v : Value) : IsValue settings known (.literal v)
  | ident {name : String} (h : known name) : IsValue settings known (.ident name)
  | property (name : String) : IsValue settings known (settings.property name)
  | binary {op : BinaryOp} {left right : Expr} (hleft : IsValue settings known left)
      (hright : IsValue settings known right) : IsValue settings known (.binary op left right)
  | unary {op : UnaryOp} {arg : Expr} (harg : IsValue settings known arg) :
      IsValue settings known (.unary op arg)
  | apply {opcode : String} {args : List Expr} (h : known opcode)
      (hargs : ∀ arg ∈ args, IsValue settings known arg) :
      IsValue settings known (.call (.ident opcode) args .plain)
  | function {path : String} {args : List Expr} (h : path ∈ mathFunctions)
      (hargs : ∀ arg ∈ args, IsValue settings known arg) :
      IsValue settings known (.call (.path path) args .plain)

section values

variable {settings : Settings} {known : String → Prop}

theorem isValue_operandAt {operands : List Expr}
    (h : ∀ e ∈ operands, e.IsValue settings known) (n : Nat) :
    (operandAt operands n).IsValue settings known := by
  unfold operandAt
  rw [List.getD_eq_getElem?_getD]
  cases hn : operands[n]? with
  | none => exact .literal .null
  | some e => exact h e (List.mem_of_getElem? hn)

theorem Settings.isValue_applyOpcode {opcode : String} {operands : List Expr}
    (hopcode : known opcode) (h : ∀ e ∈ operands, e.IsValue settings known) :
    (settings.applyOpcode opcode operands).IsValue settings known := by
  unfold Settings.applyOpcode
  cases settings.tables.getter? opcode with
  | some name => exact .property name
  | none =>
    cases hoperator : Operator.ofOpcode? opcode with
    | none => exact .apply hopcode h
    | some operator =>
      cases operator with
      | binary op => exact .binary (isValue_operandAt h 0) (isValue_operandAt h 1)
      | unary op => exact .unary (isValue_operandAt h 0)
      | function path => exact .function (Operator.mem_mathFunctions hoperator) h

mutual

/-- Arguments become values over their names. -/
theorem Arg.isValue_toExpr : ∀ (arg : Arg), (∀ name ∈ arg.names, known name) →
    (arg.toExpr settings).IsValue settings known
  | .null, _ => .literal .null
  | .literal v, _ => .literal v
  | .box name, h => .ident (h name (by simp [Arg.names]))
  | .apply opcode args, h => by
    have hopcode : known opcode := h opcode (by simp [Arg.names])
    have hargs : ∀ name ∈ Arg.listNames args, known name := fun name hname =>
      h name (by simp [Arg.names, hname])
    exact Settings.isValue_applyOpcode hopcode (Arg.isValue_toExprs args hargs)

theorem Arg.isValue_toExprs : ∀ (args : List Arg), (∀ name ∈ Arg.listNames args, known name) →
    ∀ e ∈ Arg.toExprs settings args, e.IsValue settings known
  | [], _ => by simp [Arg.toExprs]
  | arg :: args, h => by
    intro e he
    rw [Arg.toExprs] at he
    rcases List.mem_cons.mp he with rfl | he
    · exact Arg.isValue_toExpr arg fun name hname => h name (by simp [Arg.listNames, hname])
    · exact Arg.isValue_toExprs args (fun name hname => h name (by simp [Arg.listNames, hname])) e he

end

theorem Settings.isValue_operand {args : List Arg} (h : ∀ name ∈ Arg.listNames args, known name)
    (n : Nat) : (settings.operand args n).IsValue settings known :=
  isValue_operandAt (Arg.isValue_toExprs args h) n

end values

end BlockFlow
