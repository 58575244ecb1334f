import BlockFlow.Proofs.Lowering.Lowered

/-! # When a flow compiles

    Lowering walks through a flow from left to right, and through the flows
    inside a block before it goes on behind that block. Which inner flows it
    enters depends on the opcode (`Head.inner`); the others may hold anything.

    - `Flow.reached` lists the blocks it meets, each before those inside it.
    - `Block.Bad` says which blocks cannot be lowered on their own account.
    - **Main statement** (`toStmts_ok_and_error_iff`): a flow compiles exactly
      if no block that is reached is bad, and else the error is that of the
      first bad block in the list.

    The key idea of the proof is `firstFault`: the first error in a list of
    blocks. It sends `++` to "the first of the two", as `>>=` does with
    failures, so one equation per block is all it takes. -/

namespace BlockFlow

/-! ## Section 1: Reached blocks -/

/-- Which of the flows inside a block are compiled. -/
inductive Inner where
  /-- None of them. -/
  | nothing
  /-- The first one. -/
  | body
  /-- The first one and then the second one. -/
  | bodyThenElse
deriving DecidableEq

/-- The control opcodes that enter the first flow and nothing else. -/
def bodyOpcodes : List String :=
  ["if", "repeat", "while", "forever", "until", "switch", "case", "defaultcase"]

/-- Which flows are compiled inside a block with a given head. -/
def Head.inner (settings : Settings) : Head → Inner
  | .store _ | .perform _ => .nothing
  | .op opcode =>
    if opcode ∈ bodyOpcodes then .body
    else if opcode = "ifthenelse" then .bodyThenElse
    else if opcode ∈ controlOpcodes then .nothing
    else if (settings.tables.setter? opcode).isSome then .nothing
    else if (settings.tables.method? opcode).isSome ∧ settings.tables.isClamp opcode then .body
    else .nothing

mutual

/-- A block and the blocks reached inside it. -/
def Block.reached (settings : Settings) : Block → List Block
  | ⟨head, args, body, orElse⟩ =>
    ⟨head, args, body, orElse⟩ ::
      match head.inner settings with
      | .nothing => []
      | .body => Flow.innerReached settings body
      | .bodyThenElse => Flow.innerReached settings body ++ Flow.innerReached settings orElse

/-- The blocks reached in a flow that may be missing. -/
def Flow.innerReached (settings : Settings) : Option (List Block) → List Block
  | none => []
  | some flow => Flow.reached settings flow

/-- The blocks reached in a flow, each before those inside it. -/
def Flow.reached (settings : Settings) : List Block → List Block
  | [] => []
  | block :: blocks => block.reached settings ++ Flow.reached settings blocks

end

/-! ## Section 2: Bad blocks -/

/-- The opcodes that change a box. -/
def changeOpcodes : List String := ["increment", "incrementOne", "decrementOne"]

/-- An argument that can be assigned to: a box, or an attribute of the
    context. -/
def Arg.assignable (settings : Settings) : Arg → Bool
  | .box _ => true
  | .apply opcode _ => (settings.tables.getter? opcode).isSome
  | .null | .literal _ => false

namespace Block

/-- A block that cannot be lowered: its opcode has no meaning, or it changes
    something that cannot be assigned to. -/
def Bad (settings : Settings) (block : Block) : Prop :=
  match block.head with
  | .store _ | .perform _ => False
  | .op opcode =>
    (opcode ∉ controlOpcodes ∧ settings.tables.setter? opcode = none ∧
      settings.tables.method? opcode = none ∧ opcode ≠ "print") ∨
    (opcode ∈ changeOpcodes ∧ ¬ block.args.head?.any (Arg.assignable settings))

instance (settings : Settings) : (block : Block) → Decidable (block.Bad settings)
  | ⟨.store _, _, _, _⟩ | ⟨.perform _, _, _, _⟩ => inferInstanceAs (Decidable False)
  | ⟨.op _, _, _, _⟩ => inferInstanceAs (Decidable (_ ∨ _))

/-- The error that a bad block gives. -/
def error (settings : Settings) (block : Block) : CompileError :=
  if block.head.opcode ∈ changeOpcodes then
    .invalidTarget block.head.opcode (settings.operand block.args 0)
  else .unsupported block.head.opcode

end Block

/-- The error of the first bad block in a list. -/
def firstFault (settings : Settings) (blocks : List Block) : Option CompileError :=
  (blocks.find? fun block => block.Bad settings).map (Block.error settings)

section firstFault

variable {settings : Settings}

@[simp] theorem firstFault_nil : firstFault settings [] = none := rfl

theorem firstFault_append (first second : List Block) :
    firstFault settings (first ++ second) =
      (firstFault settings first).or (firstFault settings second) := by
  unfold firstFault
  rw [List.find?_append, Option.map_or]

theorem firstFault_cons_of_bad {block : Block} {blocks : List Block}
    (h : block.Bad settings) :
    firstFault settings (block :: blocks) = some (block.error settings) := by
  simp [firstFault, h]

theorem firstFault_cons_of_not_bad {block : Block} {blocks : List Block}
    (h : ¬ block.Bad settings) :
    firstFault settings (block :: blocks) = firstFault settings blocks := by
  simp [firstFault, h]

end firstFault

/-! ## Section 3: Targets -/

theorem Operator.applyTo_isTarget (operator : Operator) (operands : List Expr) :
    (operator.applyTo operands).isTarget = false := by
  cases operator <;> rfl

/-- Compiled arguments can be assigned to exactly if the arguments say so. -/
theorem Arg.toExpr_isTarget (settings : Settings) (arg : Arg) :
    (arg.toExpr settings).isTarget = arg.assignable settings := by
  cases arg with
  | null => rfl
  | literal v => rfl
  | box name => rfl
  | apply opcode args =>
    rw [Arg.toExpr, Settings.applyOpcode, Arg.assignable]
    cases settings.tables.getter? opcode with
    | some name => rfl
    | none =>
      cases Operator.ofOpcode? opcode with
      | some operator => exact operator.applyTo_isTarget _
      | none => rfl

theorem Settings.operand_zero_isTarget (settings : Settings) (args : List Arg) :
    (settings.operand args 0).isTarget = args.head?.any (Arg.assignable settings) := by
  unfold Settings.operand operandAt
  cases args with
  | nil => simp [Arg.toExprs, Expr.isTarget]
  | cons arg args => simp [Arg.toExprs, Arg.toExpr_isTarget]

/-! ## Section 4: Failures -/

/-- The failure of a computation, if it fails. -/
def failure? {ε α : Type} : Except ε α → Option ε
  | .ok _ => none
  | .error e => some e

section failure

variable {ε α β γ : Type}

@[simp] theorem failure?_ok (a : α) : failure? (.ok a : Except ε α) = none := rfl

@[simp] theorem failure?_error (e : ε) : failure? (.error e : Except ε α) = some e := rfl

theorem failure?_eq_none_iff {r : Except ε α} : failure? r = none ↔ ∃ a, r = .ok a := by
  cases r <;> simp

theorem failure?_eq_some_iff {r : Except ε α} {e : ε} : failure? r = some e ↔ r = .error e := by
  cases r <;> simp

/-- What is made of a result does not change the failure. -/
@[simp] theorem failure?_map (r : Except ε α) (f : α → β) : failure? (f <$> r) = failure? r := by
  cases r <;> rfl

/-- Of two computations in a row, the first one that fails counts. -/
@[simp] theorem failure?_bind_map (r : Except ε α) (s : Except ε β) (f : α → β → γ) :
    failure? (r >>= fun a => f a <$> s) = (failure? r).or (failure? s) := by
  cases r <;> cases s <;> rfl

end failure

theorem Settings.failure?_changeBy (opcode : String) (target : Expr) (op : BinaryOp)
    (amount : Expr) :
    failure? (Settings.changeBy opcode target op amount) =
      if target.isTarget then none else some (.invalidTarget opcode target) := by
  rw [Settings.changeBy_eq]
  split <;> rfl

/-! ## Section 5: Inner flows and bad blocks by role -/

/-- Which flows are compiled inside a construct. -/
def Construct.inner : Construct → Inner
  | .ifThenElse => .bodyThenElse
  | .leave | .increment | .incrementOne | .decrementOne => .nothing
  | _ => .body

/-- Whether a construct changes a box. -/
def Construct.changes : Construct → Bool
  | .increment | .incrementOne | .decrementOne => true
  | _ => false

/-- Which flows are compiled inside a block of a given role. -/
def Role.inner : Role → Inner
  | .construct c => c.inner
  | .method _ true => .body
  | _ => .nothing

theorem not_mem_bodyOpcodes {opcode : String} (h : opcode ∉ controlOpcodes) :
    opcode ∉ bodyOpcodes := by
  have hall : ∀ opcode ∈ bodyOpcodes, opcode ∈ controlOpcodes := by decide
  intro hmem
  exact h (hall opcode hmem)

theorem not_mem_changeOpcodes {opcode : String} (h : opcode ∉ controlOpcodes) :
    opcode ∉ changeOpcodes := by
  have hall : ∀ opcode ∈ changeOpcodes, opcode ∈ controlOpcodes := by decide
  intro hmem
  exact h (hall opcode hmem)

theorem ne_ifThenElse {opcode : String} (h : opcode ∉ controlOpcodes) :
    opcode ≠ "ifthenelse" := by
  rintro rfl
  exact h (by decide)

theorem Head.inner_of_hasRole {settings : Settings} {opcode : String} {role : Role}
    (hrole : settings.HasRole opcode role) : (Head.op opcode).inner settings = role.inner := by
  cases hrole with
  | construct c => cases c <;> rfl
  | setter hcontrol hsetter =>
    simp [Head.inner, not_mem_bodyOpcodes hcontrol, ne_ifThenElse hcontrol, hcontrol, hsetter,
      Role.inner]
  | method hcontrol hsetter hmethod =>
    cases hclamp : settings.tables.isClamp opcode <;>
      simp [Head.inner, not_mem_bodyOpcodes hcontrol, ne_ifThenElse hcontrol, hcontrol, hsetter,
        hmethod, hclamp, Role.inner]
  | print hsetter hmethod =>
    have hcontrol : "print" ∉ controlOpcodes := by decide
    simp [Head.inner, not_mem_bodyOpcodes hcontrol, hcontrol, hsetter, hmethod, Role.inner]
  | unknown hcontrol hsetter hmethod hprint =>
    simp [Head.inner, not_mem_bodyOpcodes hcontrol, ne_ifThenElse hcontrol, hcontrol, hsetter,
      hmethod, Role.inner]

/-- The fault of a block on its own account, by its role. -/
def Role.fault? (settings : Settings) (opcode : String) (args : List Arg) :
    Role → Option CompileError
  | .construct c =>
    if c.changes && !args.head?.any (Arg.assignable settings) then
      some (.invalidTarget opcode (settings.operand args 0))
    else none
  | .unknown => some (.unsupported opcode)
  | _ => none

theorem Construct.opcode_mem_changeOpcodes (c : Construct) :
    c.opcode ∈ changeOpcodes ↔ c.changes = true := by
  cases c <;> decide

/-- A block is at fault first, and then the blocks behind it. -/
theorem firstFault_cons_op (settings : Settings) (opcode : String) (args : List Arg)
    (body orElse : Option Flow) (blocks : List Block) :
    firstFault settings (⟨.op opcode, args, body, orElse⟩ :: blocks) =
      ((settings.role opcode).fault? settings opcode args).or (firstFault settings blocks) := by
  have hrole := settings.role_hasRole opcode
  generalize settings.role opcode = role at hrole
  cases hrole with
  | construct c =>
    -- A construct is known, so only its target can be at fault.
    have hbad : Block.Bad settings ⟨.op c.opcode, args, body, orElse⟩ ↔
        (c.changes && !args.head?.any (Arg.assignable settings)) = true := by
      simp [Block.Bad, c.opcode_mem_controlOpcodes, c.opcode_mem_changeOpcodes]
    by_cases h : (c.changes && !args.head?.any (Arg.assignable settings)) = true
    · have hchange := c.opcode_mem_changeOpcodes.mpr (Bool.and_eq_true_iff.mp h).1
      rw [firstFault_cons_of_bad (hbad.mpr h), Role.fault?, if_pos h]
      simp [Block.error, Head.opcode, hchange]
    · rw [firstFault_cons_of_not_bad (mt hbad.mp h), Role.fault?, if_neg h]
      rfl
  | setter hcontrol hsetter =>
    have hgood : ¬ Block.Bad settings ⟨.op opcode, args, body, orElse⟩ := by
      simp [Block.Bad, hsetter, not_mem_changeOpcodes hcontrol]
    rw [firstFault_cons_of_not_bad hgood]
    rfl
  | method hcontrol hsetter hmethod =>
    have hgood : ¬ Block.Bad settings ⟨.op opcode, args, body, orElse⟩ := by
      simp [Block.Bad, hmethod, not_mem_changeOpcodes hcontrol]
    rw [firstFault_cons_of_not_bad hgood]
    rfl
  | print hsetter hmethod =>
    have hgood : ¬ Block.Bad settings ⟨.op "print", args, body, orElse⟩ := by
      simp [Block.Bad, changeOpcodes]
    rw [firstFault_cons_of_not_bad hgood]
    rfl
  | unknown hcontrol hsetter hmethod hprint =>
    have hbad : Block.Bad settings ⟨.op opcode, args, body, orElse⟩ :=
      Or.inl ⟨hcontrol, hsetter, hmethod, hprint⟩
    rw [firstFault_cons_of_bad hbad]
    simp [Role.fault?, Block.error, Head.opcode, not_mem_changeOpcodes hcontrol]

/-! ## Section 6: The first error -/

mutual

/-- A block fails with the first fault among the blocks reached from it. -/
theorem Block.failure?_toStmt (settings : Settings) : ∀ (depth : Depth) (block : Block),
    failure? (block.toStmt settings depth) = firstFault settings (block.reached settings)
  | _, ⟨.store _, _, _, _⟩ => rfl
  | _, ⟨.perform _, _, _, _⟩ => rfl
  | depth, ⟨.op opcode, args, body, orElse⟩ => by
    have hbody := fun depth => Flow.failure?_innerToStmts settings depth body
    have helse := fun depth => Flow.failure?_innerToStmts settings depth orElse
    have htarget := settings.operand_zero_isTarget args
    -- Both sides follow the role now: first the fault of the block itself, then
    -- those of its body and of its alternative.
    rw [Block.reached, firstFault_cons_op, Head.inner_of_hasRole (settings.role_hasRole opcode),
      Block.toStmt]
    cases settings.role opcode with
    | construct c =>
      cases hassign : args.head?.any (Arg.assignable settings) <;> cases c <;>
        simp [Role.inner, Construct.inner, Role.fault?, Construct.changes, hbody, helse,
          firstFault_append, Settings.failure?_changeBy, htarget, hassign]
    | setter property => simp [Role.inner, Role.fault?]
    | method name clamp => cases clamp <;> simp [Role.inner, Role.fault?, hbody]
    | print => simp [Role.inner, Role.fault?]
    | unknown => simp [Role.inner, Role.fault?]

theorem Flow.failure?_innerToStmts (settings : Settings) :
    ∀ (depth : Depth) (flow : Option (List Block)),
    failure? (Flow.innerToStmts settings depth flow) =
      firstFault settings (Flow.innerReached settings flow)
  | _, none => rfl
  | depth, some flow => Flow.failure?_toStmts settings depth flow

/-- A flow fails with the first fault among the blocks reached in it. -/
theorem Flow.failure?_toStmts (settings : Settings) : ∀ (depth : Depth) (flow : List Block),
    failure? (Flow.toStmts settings depth flow) = firstFault settings (Flow.reached settings flow)
  | _, [] => rfl
  | depth, block :: blocks => by
    have hblock := Block.failure?_toStmt settings depth block
    have hblocks := Flow.failure?_toStmts settings depth blocks
    simp [Flow.toStmts, Flow.reached, firstFault_append, hblock, hblocks]

end

/-- **Success and first error of compilation.** A flow compiles exactly if no
    reached block is bad. Otherwise the error is that of the first reached
    block that is bad. The depth has no influence on either. -/
theorem Flow.toStmts_ok_and_error_iff (settings : Settings) (depth : Depth) (flow : Flow) :
    ((∃ stmts, Flow.toStmts settings depth flow = .ok stmts) ↔
      ∀ block ∈ Flow.reached settings flow, ¬ block.Bad settings) ∧
    ∀ error, Flow.toStmts settings depth flow = .error error ↔
      ∃ before block after, Flow.reached settings flow = before ++ block :: after ∧
        (∀ earlier ∈ before, ¬ earlier.Bad settings) ∧ block.Bad settings ∧
        error = block.error settings := by
  have hfail := Flow.failure?_toStmts settings depth flow
  constructor
  · -- No failure means that no bad block is found.
    rw [← failure?_eq_none_iff, hfail, firstFault, Option.map_eq_none_iff, List.find?_eq_none]
    simp
  · -- A failure is the error of the block that is found, which is the first.
    intro error
    rw [← failure?_eq_some_iff, hfail, firstFault, Option.map_eq_some_iff]
    constructor
    · rintro ⟨block, hfind, rfl⟩
      obtain ⟨hbad, before, after, hsplit, hbefore⟩ := List.find?_eq_some_iff_append.mp hfind
      exact ⟨before, block, after, hsplit, by simpa using hbefore, by simpa using hbad, rfl⟩
    · rintro ⟨before, block, after, hsplit, hbefore, hbad, rfl⟩
      refine ⟨block, List.find?_eq_some_iff_append.mpr ⟨?_, before, after, hsplit, ?_⟩, rfl⟩
      · simpa using hbad
      · simpa using hbefore

end BlockFlow
