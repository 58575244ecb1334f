import BlockFlow.Lowering.Statement
import BlockFlow.Proofs.Lowering.Role
import Mathlib.Logic.Basic

/-! # Which entries of the lookup tables matter

    Two runs of the compiler that differ in their lookup tables only have the
    same outcome if the tables agree where they are asked.

    - A getter is asked for where an opcode is applied in an argument.
    - The head of a block asks for more, step by step: nothing if its opcode
      is a construct; else for the setter; for the method if there is no
      setter; for the clamp mark if there is a method (`AgreeOnHead`).

    So an opcode has the same role in both runs (`role_eq_of_agreeOnHead`), an
    argument the same expression (`toExpr_eq_of_getter?`), and the rest is
    one induction over the blocks, in which the two runs go the same way.

    As an opcode in an argument a construct is nothing special: a getter for it
    is asked for like any other. -/

namespace BlockFlow

/-! ## Section 1: Where opcodes occur -/

mutual

/-- The opcodes that an argument applies, at any depth. -/
def Arg.opcodes : Arg → List String
  | .null | .literal _ | .box _ => []
  | .apply opcode args => opcode :: Arg.listOpcodes args

/-- The opcodes that arguments apply. -/
def Arg.listOpcodes : List Arg → List String
  | [] => []
  | arg :: args => arg.opcodes ++ Arg.listOpcodes args

end

mutual

/-- A block and the blocks in both flows inside it, compiled or not. -/
def Block.all : Block → List Block
  | ⟨head, args, body, orElse⟩ =>
    ⟨head, args, body, orElse⟩ :: (Flow.innerBlocks body ++ Flow.innerBlocks orElse)

/-- The blocks of a flow that may be missing. -/
def Flow.innerBlocks : Option (List Block) → List Block
  | none => []
  | some flow => Flow.blocks flow

/-- The blocks of a flow, at any depth. -/
def Flow.blocks : List Block → List Block
  | [] => []
  | block :: blocks => block.all ++ Flow.blocks blocks

end

/-! ## Section 2: Agreement -/

namespace LookupTables

/-- The tables agree on an opcode as the head of a block: on its setter, on
    its method unless it is a setter, and on its clamp mark if it is a method. -/
structure AgreeOnHead (tables tables' : LookupTables) (opcode : String) : Prop where
  /-- The setters agree. -/
  setter : tables.setter? opcode = tables'.setter? opcode
  /-- The methods agree, where they are asked. -/
  method : tables.setter? opcode = none → tables.method? opcode = tables'.method? opcode
  /-- The clamp marks agree, where they are asked. -/
  clamp : tables.setter? opcode = none → (tables.method? opcode).isSome →
    tables.isClamp opcode = tables'.isClamp opcode

/-- **Agreement on blocks**: the tables agree on the getter of every opcode
    that is applied in an argument, and on every opcode that is the head of a
    block and no construct. -/
structure AgreeOn (tables tables' : LookupTables) (blocks : List Block) : Prop where
  /-- The getters agree on the opcodes of the arguments. -/
  getter : ∀ block ∈ blocks, ∀ opcode ∈ Arg.listOpcodes block.args,
    tables.getter? opcode = tables'.getter? opcode
  /-- The other tables agree on the opcodes of the heads. -/
  head : ∀ block ∈ blocks, ∀ opcode, block.head = .op opcode → opcode ∉ controlOpcodes →
    tables.AgreeOnHead tables' opcode

theorem AgreeOn.mono {tables tables' : LookupTables} {blocks fewer : List Block}
    (h : tables.AgreeOn tables' blocks) (hfewer : fewer ⊆ blocks) :
    tables.AgreeOn tables' fewer where
  getter block hblock := h.getter block (hfewer hblock)
  head block hblock := h.head block (hfewer hblock)

end LookupTables

/-! ## Section 3: Two runs -/

section runs

variable {tables tables' : LookupTables} (conventions : Conventions)

/-- An opcode has the same role in both runs. -/
theorem Settings.role_eq_of_agreeOnHead {opcode : String}
    (h : opcode ∉ controlOpcodes → tables.AgreeOnHead tables' opcode) :
    Settings.role ⟨tables, conventions⟩ opcode = Settings.role ⟨tables', conventions⟩ opcode := by
  unfold Settings.role
  cases hconstruct : Construct.ofOpcode? opcode with
  | some construct => rfl
  | none =>
    obtain ⟨hsetter, hmethod, hclamp⟩ := h (Construct.ofOpcode?_eq_none_iff.mp hconstruct)
    dsimp only
    rw [← hsetter]
    cases hset : tables.setter? opcode with
    | some property => rfl
    | none =>
      dsimp only
      rw [← hmethod hset]
      cases hcall : tables.method? opcode with
      | some name => rw [hclamp hset (by rw [hcall]; rfl)]
      | none => rfl

theorem Settings.applyOpcode_eq_of_getter? {opcode : String}
    (h : tables.getter? opcode = tables'.getter? opcode) (operands : List Expr) :
    Settings.applyOpcode ⟨tables, conventions⟩ opcode operands =
      Settings.applyOpcode ⟨tables', conventions⟩ opcode operands := by
  unfold Settings.applyOpcode
  dsimp only
  rw [h]
  rfl

mutual

/-- An argument becomes the same expression in both runs. -/
theorem Arg.toExpr_eq_of_getter? : ∀ (arg : Arg),
    (∀ opcode ∈ arg.opcodes, tables.getter? opcode = tables'.getter? opcode) →
      arg.toExpr ⟨tables, conventions⟩ = arg.toExpr ⟨tables', conventions⟩
  | .null, _ | .literal _, _ | .box _, _ => rfl
  | .apply opcode args, h => by
    rw [Arg.opcodes] at h
    obtain ⟨hopcode, hargs⟩ := List.forall_mem_cons.mp h
    rw [Arg.toExpr, Arg.toExpr, Arg.toExprs_eq_of_getter? args hargs]
    exact Settings.applyOpcode_eq_of_getter? conventions hopcode _

theorem Arg.toExprs_eq_of_getter? : ∀ (args : List Arg),
    (∀ opcode ∈ Arg.listOpcodes args, tables.getter? opcode = tables'.getter? opcode) →
      Arg.toExprs ⟨tables, conventions⟩ args = Arg.toExprs ⟨tables', conventions⟩ args
  | [], _ => rfl
  | arg :: args, h => by
    rw [Arg.listOpcodes] at h
    obtain ⟨harg, hargs⟩ := List.forall_mem_append.mp h
    rw [Arg.toExprs, Arg.toExprs, Arg.toExpr_eq_of_getter? arg harg,
      Arg.toExprs_eq_of_getter? args hargs]

end

-- With the same role, the same operands and the same inner statements, what is
-- left of the settings in a statement are the conventions.
mutual

theorem Block.toStmt_eq_of_agreeOn : ∀ (block : Block), tables.AgreeOn tables' block.all →
    ∀ depth, block.toStmt ⟨tables, conventions⟩ depth = block.toStmt ⟨tables', conventions⟩ depth
  | ⟨head, args, body, orElse⟩, h, depth => by
    rw [Block.all] at h
    have hbody := Flow.innerToStmts_eq_of_agreeOn body (h.mono (by simp))
    have helse := Flow.innerToStmts_eq_of_agreeOn orElse (h.mono (by simp))
    have hargs := Arg.toExprs_eq_of_getter? conventions args (h.getter _ List.mem_cons_self)
    have hoperand : ∀ n, Settings.operand ⟨tables, conventions⟩ args n =
        Settings.operand ⟨tables', conventions⟩ args n := by
      intro n
      rw [Settings.operand, Settings.operand, hargs]
    cases head with
    | store name => rw [Block.toStmt, Block.toStmt, hoperand]
    | perform name => rfl
    | op opcode =>
      have hrole := Settings.role_eq_of_agreeOnHead conventions
        (h.head _ List.mem_cons_self opcode rfl)
      rw [Block.toStmt, Block.toStmt, hrole]
      simp only [hbody, helse, hargs, hoperand, Settings.assignProperty]
      rfl

theorem Flow.innerToStmts_eq_of_agreeOn : ∀ (flow : Option (List Block)),
    tables.AgreeOn tables' (Flow.innerBlocks flow) → ∀ depth,
      Flow.innerToStmts ⟨tables, conventions⟩ depth flow =
        Flow.innerToStmts ⟨tables', conventions⟩ depth flow
  | none, _, _ => rfl
  | some flow, h, depth => Flow.toStmts_eq_of_agreeOn flow h depth

/-- A flow has the same outcome in both runs. -/
theorem Flow.toStmts_eq_of_agreeOn : ∀ (flow : List Block),
    tables.AgreeOn tables' (Flow.blocks flow) → ∀ depth,
      Flow.toStmts ⟨tables, conventions⟩ depth flow =
        Flow.toStmts ⟨tables', conventions⟩ depth flow
  | [], _, _ => rfl
  | block :: blocks, h, depth => by
    rw [Flow.blocks] at h
    have hblock := block.toStmt_eq_of_agreeOn (h.mono (List.subset_append_left _ _))
    have hblocks := Flow.toStmts_eq_of_agreeOn blocks (h.mono (List.subset_append_right _ _))
    rw [Flow.toStmts, Flow.toStmts, hblock, hblocks]

end

end runs

/-! ## Section 4: Single entries -/

namespace LookupTables

variable {opcode other : String}

theorem isClamp_addClamp_ne (tables : LookupTables) (h : other ≠ opcode) :
    (tables.addClamp opcode).isClamp other = tables.isClamp other := by
  unfold addClamp isClamp insertName
  dsimp only
  split
  · rfl
  · simp [h]

/-- Setters for constructs are never asked for. -/
theorem agreeOn_addSetter (tables : LookupTables) (h : opcode ∈ controlOpcodes) (name : String)
    (blocks : List Block) : tables.AgreeOn (tables.addSetter opcode name) blocks where
  getter _ _ _ _ := rfl
  head _ _ _ _ hother :=
    { setter := (Entries.get?_put_ne _ _ (ne_of_mem_of_not_mem h hother).symm).symm
      method _ := rfl
      clamp _ _ := rfl }

/-- Methods for constructs are never asked for. -/
theorem agreeOn_addMethod (tables : LookupTables) (h : opcode ∈ controlOpcodes) (name : String)
    (blocks : List Block) : tables.AgreeOn (tables.addMethod opcode name) blocks where
  getter _ _ _ _ := rfl
  head _ _ _ _ hother :=
    { setter := rfl
      method _ := (Entries.get?_put_ne _ _ (ne_of_mem_of_not_mem h hother).symm).symm
      clamp _ _ := rfl }

/-- Clamp marks for constructs, for setters and for opcodes without a method
    are never asked for. -/
theorem agreeOn_addClamp (tables : LookupTables)
    (h : opcode ∈ controlOpcodes ∨ (tables.setter? opcode).isSome ∨ tables.method? opcode = none)
    (blocks : List Block) : tables.AgreeOn (tables.addClamp opcode) blocks where
  getter _ _ _ _ := rfl
  head _ _ _ _ hother :=
    { setter := rfl
      method _ := rfl
      clamp hsetter hmethod := by
        refine (isClamp_addClamp_ne tables ?_).symm
        rintro rfl
        rcases h with hcontrol | hset | hcall
        · exact hother hcontrol
        · rw [hsetter] at hset
          cases hset
        · rw [hcall] at hmethod
          cases hmethod }

/-- Getters are asked for in arguments only. -/
theorem agreeOn_addGetter (tables : LookupTables) {blocks : List Block}
    (h : ∀ block ∈ blocks, opcode ∉ Arg.listOpcodes block.args) (name : String) :
    tables.AgreeOn (tables.addGetter opcode name) blocks where
  getter block hblock _ hother :=
    (Entries.get?_put_ne _ _ (ne_of_mem_of_not_mem hother (h block hblock))).symm
  head _ _ _ _ _ :=
    { setter := rfl
      method _ := rfl
      clamp _ _ := rfl }

end LookupTables

/-- Where an opcode with a getter is applied, its operands do not matter. -/
theorem Settings.applyOpcode_addGetter (tables : LookupTables) (conventions : Conventions)
    (opcode name : String) (operands : List Expr) :
    Settings.applyOpcode ⟨tables.addGetter opcode name, conventions⟩ opcode operands =
      .member (.ident conventions.context) name := by
  have hgetter : (tables.addGetter opcode name).getter? opcode = some name :=
    Entries.get?_put_self _ _ _
  unfold Settings.applyOpcode
  dsimp only
  rw [hgetter]
  rfl

/-- **Relevance of the lookup tables**: a flow has the same outcome, statements
    or error, under all tables that agree where the flow asks them. So setters,
    methods and clamp marks of constructs never matter, nor do clamp marks of
    setters or of opcodes without a method, nor getters of opcodes that the
    flow does not apply in an argument. Where it applies one, be it a construct,
    a getter makes it an attribute of the context. -/
theorem Flow.toStmts_eq_of_relevant_entries (conventions : Conventions) (depth : Depth)
    (flow : Flow) (tables : LookupTables) :
    (∀ tables', tables.AgreeOn tables' (Flow.blocks flow) →
      Flow.toStmts ⟨tables, conventions⟩ depth flow =
        Flow.toStmts ⟨tables', conventions⟩ depth flow) ∧
    (∀ opcode ∈ controlOpcodes, ∀ name,
      Flow.toStmts ⟨tables, conventions⟩ depth flow =
        Flow.toStmts ⟨tables.addSetter opcode name, conventions⟩ depth flow ∧
      Flow.toStmts ⟨tables, conventions⟩ depth flow =
        Flow.toStmts ⟨tables.addMethod opcode name, conventions⟩ depth flow) ∧
    (∀ opcode, opcode ∈ controlOpcodes ∨ (tables.setter? opcode).isSome ∨
        tables.method? opcode = none →
      Flow.toStmts ⟨tables, conventions⟩ depth flow =
        Flow.toStmts ⟨tables.addClamp opcode, conventions⟩ depth flow) ∧
    (∀ opcode, (∀ block ∈ Flow.blocks flow, opcode ∉ Arg.listOpcodes block.args) → ∀ name,
      Flow.toStmts ⟨tables, conventions⟩ depth flow =
        Flow.toStmts ⟨tables.addGetter opcode name, conventions⟩ depth flow) ∧
    ∀ opcode name args,
      Arg.toExpr ⟨tables.addGetter opcode name, conventions⟩ (.apply opcode args) =
        .member (.ident conventions.context) name := by
  have hruns : ∀ tables', tables.AgreeOn tables' (Flow.blocks flow) →
      Flow.toStmts ⟨tables, conventions⟩ depth flow =
        Flow.toStmts ⟨tables', conventions⟩ depth flow :=
    fun _ h => Flow.toStmts_eq_of_agreeOn conventions flow h depth
  refine ⟨hruns, fun opcode h name => ⟨?_, ?_⟩, fun opcode h => ?_, fun opcode h name => ?_,
    fun opcode name args => ?_⟩
  · exact hruns _ (tables.agreeOn_addSetter h name _)
  · exact hruns _ (tables.agreeOn_addMethod h name _)
  · exact hruns _ (tables.agreeOn_addClamp h _)
  · exact hruns _ (tables.agreeOn_addGetter h name)
  · rw [Arg.toExpr]
    exact Settings.applyOpcode_addGetter tables conventions opcode name _

theorem Flow.toStmts_eq_of_relevant_entries_callback :
    let flow : Flow := [⟨.op "repeat", [.apply "pitch" [.box "x"]],
      some [⟨.op "note", [], some [⟨.op "print", [.box "repeat"], none, none⟩], none⟩], none⟩]
    let tables : LookupTables :=
      { getters := [("pitch", "pitch")], methods := [("note", "playNote")], clamps := ["note"] }
    let tables' : LookupTables :=
      { setters := [("repeat", "count")], getters := [("print", "page"), ("pitch", "pitch")],
        methods := [("if", "choose"), ("note", "playNote")], clamps := ["print", "repeat", "note"] }
    tables.AgreeOn tables' (Flow.blocks flow) ∧
    Flow.toStmts ⟨tables, {}⟩ 2 flow = Flow.toStmts ⟨tables', {}⟩ 2 flow ∧
    Flow.toStmts ⟨tables, {}⟩ 2 flow = Flow.toStmts ⟨tables.addMethod "repeat" "loop", {}⟩ 2 flow ∧
    Flow.toStmts ⟨tables, {}⟩ 2 flow = Flow.toStmts ⟨tables.addClamp "print", {}⟩ 2 flow ∧
    Flow.toStmts ⟨tables, {}⟩ 2 flow = Flow.toStmts ⟨tables.addGetter "repeat" "round", {}⟩ 2 flow ∧
    Arg.toExpr ⟨tables.addGetter "repeat" "round", {}⟩ (.apply "repeat" [.box "x"]) =
      .member (.ident "mouse") "round" := by
  intro flow tables tables'
  have hagree : tables.AgreeOn tables' (Flow.blocks flow) := by
    refine ⟨by decide, fun block hblock opcode hhead hcontrol => ?_⟩
    have hblocks : block.head = .op "repeat" ∨ block.head = .op "note" ∨
        block.head = .op "print" := by
      have hall : ∀ block ∈ Flow.blocks flow, block.head = .op "repeat" ∨
        block.head = .op "note" ∨ block.head = .op "print" := by decide
      exact hall block hblock
    rw [hhead] at hblocks
    rcases hblocks with h | h | h <;> cases h
    · exact absurd (by decide) hcontrol
    · exact ⟨rfl, fun _ => rfl, fun _ _ => rfl⟩
    · exact ⟨rfl, fun _ => rfl, fun _ h => by cases h⟩
  obtain ⟨hruns, hconstruct, hclamp, hgetter, happly⟩ :=
    Flow.toStmts_eq_of_relevant_entries {} 2 flow tables
  exact ⟨hagree, hruns tables' hagree, (hconstruct "repeat" (by decide) "loop").2,
    hclamp "print" (.inr (.inr rfl)), hgetter "repeat" (by decide) "round",
    happly "repeat" "round" [.box "x"]⟩

/-- **Getters of constructs matter.** A construct that is applied in an argument
    is a function without a getter, and an attribute with one. -/
theorem Flow.toStmts_addGetter_construct :
    let flow : Flow := [⟨.op "print", [.apply "if" []], none, none⟩]
    let plain : Settings := ⟨{}, {}⟩
    let getting : Settings := ⟨LookupTables.addGetter {} "if" "X", {}⟩
    "if" ∈ controlOpcodes ∧
    Flow.toStmts plain 0 flow = .ok [plain.printCall [.call (.ident "if") [] .plain]] ∧
    Flow.toStmts getting 0 flow = .ok [getting.printCall [.member (.ident "mouse") "X"]] ∧
    Flow.toStmts plain 0 flow ≠ Flow.toStmts getting 0 flow := by
  intro flow plain getting
  have hplain : Flow.toStmts plain 0 flow = .ok [plain.printCall [.call (.ident "if") [] .plain]] :=
    rfl
  have hgetting :
      Flow.toStmts getting 0 flow = .ok [getting.printCall [.member (.ident "mouse") "X"]] := rfl
  refine ⟨by decide, hplain, hgetting, ?_⟩
  rw [hplain, hgetting]
  intro h
  cases h

end BlockFlow
