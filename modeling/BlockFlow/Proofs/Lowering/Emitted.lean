import BlockFlow.Proofs.Lowering.Operand
import BlockFlow.Proofs.Program.Trail

/-! # What stands where in a compiled flow

    `Emitted` says of a trail through a compiled flow what is found at its
    end, and where that came from:

    - the statement of a block that is reached, compiled at the depth that the
      loops on the trail give it, which is a number of 64 bits like the depth
      of the flow;
    - a value, which is what arguments become, or a dotted name;
    - a piece of the header of a counted loop, below its loop;
    - the call of a statement, and for a clamp its callback;
    - a statement that lowering puts in by itself.

    Stepping down from one of these leads to one of these again
    (`Emitted.part`), and so every trail through a compiled flow is emitted
    (`Flow.emitted_of_toStmts`). What holds of all loops, closures or names of
    a compiled flow is read off from this list. -/

namespace BlockFlow

/-! ## Section 1: The list -/

/-- A name that stands in a compiled flow and is no counter: one of the flow,
    or one of the few that lowering knows. -/
def Settings.Known (settings : Settings) (flow : Flow) (name : String) : Prop :=
  name ∈ Flow.names flow ∨
    name ∈ [settings.conventions.context, Text.beforeDot settings.conventions.log, "Math"]

/-- **Header of a counted loop**: the four places where the counter of a loop
    stands in its header. -/
inductive InHeader (name : String) : Trail → Prop where
  /-- It is declared before the first round. -/
  | init {slot : Slot} {loop : Stmt} {v : Value} {above : Trail}
      (hloop : loop.counter? = some name) :
      InHeader name ((.init, .stmt (.bind name (.literal v))) :: (slot, .stmt loop) :: above)
  /-- It is compared with the bound. -/
  | testLeft {slot : Slot} {loop : Stmt} {test : Node} {above : Trail}
      (hloop : loop.counter? = some name) :
      InHeader name
        ((.left, .expr (.ident name)) :: (.test, test) :: (slot, .stmt loop) :: above)
  /-- It is assigned to behind each round. -/
  | updateTarget {slot : Slot} {loop : Stmt} {update : Node} {above : Trail}
      (hloop : loop.counter? = some name) :
      InHeader name
        ((.target, .expr (.ident name)) :: (.update, update) :: (slot, .stmt loop) :: above)
  /-- It is increased behind each round. -/
  | updateLeft {slot : Slot} {loop : Stmt} {value update : Node} {above : Trail}
      (hloop : loop.counter? = some name) :
      InHeader name
        ((.left, .expr (.ident name)) :: (.value, value) :: (.update, update) ::
          (slot, .stmt loop) :: above)

namespace Settings

/-- An opcode that is a method and a clamp. -/
structure IsClampMethod (settings : Settings) (opcode : String) : Prop where
  /-- It is no construct, -/
  control : opcode ∉ controlOpcodes
  /-- nor a setter, -/
  setter : settings.tables.setter? opcode = none
  /-- but a method -/
  method : (settings.tables.method? opcode).isSome = true
  /-- that wraps a flow. -/
  clamp : settings.tables.isClamp opcode = true

theorem HasRole.isClampMethod {settings : Settings} {opcode name : String}
    (h : settings.HasRole opcode (.method name true)) : settings.IsClampMethod opcode := by
  generalize hclamp : true = clamp at h
  cases h with
  | method hcontrol hsetter hmethod => exact ⟨hcontrol, hsetter, by simp [hmethod], hclamp.symm⟩

end Settings

/-- A statement that a reached clamp of a flow becomes. -/
def Flow.IsClampStmt (settings : Settings) (flow : Flow) (stmt : Stmt) : Prop :=
  ∃ block ∈ Flow.reached settings flow, ∃ opcode, block.head = .op opcode ∧
    settings.IsClampMethod opcode ∧ ∃ depth, block.toStmt settings depth = .ok stmt

/-- **Clamps**: the call of a clamp at a depth, with its callback as the last
    argument. -/
structure IsClampCall (settings : Settings) (flow : Flow) (depth : Depth) (callee : Expr)
    (args : List Expr) (stmts : List Stmt) : Prop where
  /-- It is the call of a reached clamp. -/
  stmt : Flow.IsClampStmt settings flow
    (.expr (.call callee (args ++ [settings.callback stmts]) .suspend))
  /-- The method is a dotted name. -/
  callee : callee.IsChain (settings.Known flow)
  /-- The other arguments are values. -/
  args : ∀ arg ∈ args, arg.IsValue settings (settings.Known flow)
  /-- The callback holds a reached flow. -/
  body : ∃ body, Flow.innerReached settings body ⊆ Flow.reached settings flow ∧
    Flow.innerToStmts settings depth body = .ok stmts

/-- **What a compiled flow consists of**: what can be at the end of a trail
    through a flow that is compiled at a depth. -/
inductive Emitted (settings : Settings) (flow : Flow) (depth : Depth) : Trail → Prop where
  /-- The statement of a reached block, at the depth that the trail gives it. -/
  | block {slot : Slot} {block : Block} {stmt : Stmt} {above : Trail}
      (hreached : block.reached settings ⊆ Flow.reached settings flow)
      (hstmt : block.toStmt settings (depth + above.loops) = .ok stmt) :
      Emitted settings flow depth ((slot, .stmt stmt) :: above)
  /-- The end of a case. -/
  | caseEnd {slot : Slot} {above : Trail} : Emitted settings flow depth ((slot, .stmt .brk) :: above)
  /-- A value. -/
  | value {slot : Slot} {e : Expr} {above : Trail} (he : e.IsValue settings (settings.Known flow)) :
      Emitted settings flow depth ((slot, .expr e) :: above)
  /-- A dotted name. -/
  | chain {slot : Slot} {e : Expr} {above : Trail} (he : e.IsChain (settings.Known flow)) :
      Emitted settings flow depth ((slot, .expr e) :: above)
  /-- The counter of a loop in its header. -/
  | counter {name : String} {t : Trail} (h : InHeader name t) : Emitted settings flow depth t
  /-- The test of a counted loop. -/
  | loopTest {slot : Slot} {loop : Stmt} {name : String} {bound : Expr} {above : Trail}
      (hloop : loop.counter? = some name) (hbound : bound.IsValue settings (settings.Known flow)) :
      Emitted settings flow depth
        ((.test, .expr (.binary .lt (.ident name) bound)) :: (slot, .stmt loop) :: above)
  /-- The update of a counted loop. -/
  | loopUpdate {slot : Slot} {loop : Stmt} {name : String} {v : Value} {above : Trail}
      (hloop : loop.counter? = some name) :
      Emitted settings flow depth
        ((.update, .stmt (.assign (.ident name) (.binary .add (.ident name) (.literal v)))) ::
          (slot, .stmt loop) :: above)
  /-- The new value of the counter of a loop. -/
  | loopValue {slot : Slot} {loop : Stmt} {name : String} {v : Value} {update : Node}
      {above : Trail} (hloop : loop.counter? = some name) :
      Emitted settings flow depth
        ((.value, .expr (.binary .add (.ident name) (.literal v))) :: (.update, update) ::
          (slot, .stmt loop) :: above)
  /-- The call of a statement without a callback. -/
  | call {slot : Slot} {callee : Expr} {args : List Expr} {mode : CallMode} {above : Trail}
      (hcallee : callee.IsChain (settings.Known flow))
      (hargs : ∀ arg ∈ args, arg.IsValue settings (settings.Known flow)) :
      Emitted settings flow depth
        ((.value, .expr (.call callee args mode)) :: (slot, .stmt (.expr (.call callee args mode))) ::
          above)
  /-- The call of a clamp. -/
  | clampCall {slot : Slot} {callee : Expr} {args : List Expr} {stmts : List Stmt} {above : Trail}
      (h : IsClampCall settings flow (depth + above.loops) callee args stmts) :
      Emitted settings flow depth
        ((.value, .expr (.call callee (args ++ [settings.callback stmts]) .suspend)) ::
          (slot, .stmt (.expr (.call callee (args ++ [settings.callback stmts]) .suspend))) :: above)
  /-- The callback of a clamp. -/
  | callback {slot : Slot} {callee : Expr} {args : List Expr} {stmts : List Stmt} {above : Trail}
      (h : IsClampCall settings flow (depth + above.loops) callee args stmts) :
      Emitted settings flow depth
        ((.arg args.length, .expr (settings.callback stmts)) ::
          (.value, .expr (.call callee (args ++ [settings.callback stmts]) .suspend)) ::
          (slot, .stmt (.expr (.call callee (args ++ [settings.callback stmts]) .suspend))) :: above)
  /-- The end of a callback. -/
  | callbackEnd {slot : Slot} {stmts : List Stmt} {above : Trail} :
      Emitted settings flow depth
        ((.body stmts.length, .stmt (settings.endMarker settings.conventions.endOfFlow)) ::
          (slot, .expr (settings.callback stmts)) :: above)

/-! ## Section 2: Inner flows -/

theorem Block.mem_reached (settings : Settings) (block : Block) :
    block ∈ block.reached settings := by
  obtain ⟨head, args, body, orElse⟩ := block
  simp [Block.reached]

theorem Flow.reached_subset_of_mem {settings : Settings} {flow : Flow} {block : Block}
    (h : block ∈ flow) : block.reached settings ⊆ Flow.reached settings flow := by
  induction flow with
  | nil => simp at h
  | cons first blocks ih =>
    rw [Flow.reached]
    rcases List.mem_cons.mp h with rfl | h
    · exact List.subset_append_left _ _
    · exact List.Subset.trans (ih h) (List.subset_append_right _ _)

theorem Block.innerReached_subset_of_body {settings : Settings} {head : Head} {args : List Arg}
    {body orElse : Option Flow} (h : head.inner settings = .body) :
    Flow.innerReached settings body ⊆ Block.reached settings ⟨head, args, body, orElse⟩ := by
  simp [Block.reached, h]

theorem Block.innerReached_append_subset {settings : Settings} {head : Head} {args : List Arg}
    {body orElse : Option Flow} (h : head.inner settings = .bodyThenElse) :
    Flow.innerReached settings body ++ Flow.innerReached settings orElse ⊆
      Block.reached settings ⟨head, args, body, orElse⟩ := by
  simp [Block.reached, h]

/-- Every statement of a compiled flow is that of one of its blocks. -/
theorem Flow.exists_block_of_toStmts {settings : Settings} {depth : Depth} {flow : Flow}
    {stmts : List Stmt} (h : Flow.toStmts settings depth flow = .ok stmts) {s : Stmt}
    (hs : s ∈ stmts) : ∃ block ∈ flow, block.toStmt settings depth = .ok s := by
  induction flow generalizing stmts with
  | nil =>
    rw [Flow.toStmts] at h
    cases h
    simp at hs
  | cons first blocks ih =>
    rw [Flow.toStmts] at h
    obtain ⟨stmt, hfirst, h⟩ := exists_of_bind_eq_ok h
    obtain ⟨rest, hrest, rfl⟩ := exists_of_bind_return_eq_ok h
    rcases List.mem_cons.mp hs with rfl | hs
    · exact ⟨first, List.mem_cons_self, hfirst⟩
    · obtain ⟨block, hblock, hstmt⟩ := ih hrest hs
      exact ⟨block, List.mem_cons_of_mem _ hblock, hstmt⟩

section emitted

variable {settings : Settings} {flow : Flow} {depth : Depth}

theorem Emitted.of_toStmts {inner : Flow} {stmts : List Stmt} {slot : Slot} {s : Stmt}
    {above : Trail} (hreached : Flow.reached settings inner ⊆ Flow.reached settings flow)
    (hinner : Flow.toStmts settings (depth + above.loops) inner = .ok stmts) (hs : s ∈ stmts) :
    Emitted settings flow depth ((slot, .stmt s) :: above) := by
  obtain ⟨block, hblock, hstmt⟩ := Flow.exists_block_of_toStmts hinner hs
  exact .block (List.Subset.trans (Flow.reached_subset_of_mem hblock) hreached) hstmt

/-- The statements of a reached inner flow are emitted. -/
theorem Emitted.of_innerToStmts {body : Option Flow} {stmts : List Stmt} {slot : Slot} {s : Stmt}
    {above : Trail} (hreached : Flow.innerReached settings body ⊆ Flow.reached settings flow)
    (hbody : Flow.innerToStmts settings (depth + above.loops) body = .ok stmts) (hs : s ∈ stmts) :
    Emitted settings flow depth ((slot, .stmt s) :: above) := by
  cases body with
  | none =>
    rw [Flow.innerToStmts] at hbody
    cases hbody
    simp at hs
  | some inner => exact Emitted.of_toStmts hreached hbody hs

/-- The statements of the flow inside a block that is reached. -/
theorem Emitted.of_body {head : Head} {args : List Arg} {body orElse : Option Flow}
    {stmts : List Stmt} {slot : Slot} {s : Stmt} {above : Trail}
    (hinner : head.inner settings = .body)
    (hreached : Block.reached settings ⟨head, args, body, orElse⟩ ⊆ Flow.reached settings flow)
    (hbody : Flow.innerToStmts settings (depth + above.loops) body = .ok stmts) (hs : s ∈ stmts) :
    Emitted settings flow depth ((slot, .stmt s) :: above) :=
  .of_innerToStmts (List.Subset.trans (Block.innerReached_subset_of_body hinner) hreached) hbody hs

/-! ## Section 3: Steps down -/

theorem Settings.known_context : settings.Known flow settings.conventions.context :=
  Or.inr (by simp)

theorem Settings.known_log : settings.Known flow (Text.beforeDot settings.conventions.log) :=
  Or.inr (by simp)

/-- The functions of operators belong to one known object. -/
theorem Settings.known_mathFunctions {path : String} (h : path ∈ mathFunctions) :
    settings.Known flow (Text.beforeDot path) := by
  have hall : ∀ path ∈ mathFunctions, Text.beforeDot path = "Math" := by decide
  exact Or.inr (by simp [hall path h])

/-- The parts of a value are values and the functions of operators. -/
theorem Expr.IsValue.exists_part {known : String → Prop} {e : Expr}
    (he : e.IsValue settings known) (hcontext : known settings.conventions.context) {slot : Slot}
    {node : Node} (hpart : Part (.expr e) slot node) :
    ∃ part, node = .expr part ∧
      (part.IsValue settings known ∨ ∃ path ∈ mathFunctions, part = .path path) := by
  cases he with
  | literal v => cases hpart
  | ident h => cases hpart
  | property name =>
    cases hpart with
    | memberObject => exact ⟨_, rfl, Or.inl (.ident hcontext)⟩
  | binary hleft hright =>
    cases hpart with
    | binaryLeft => exact ⟨_, rfl, Or.inl hleft⟩
    | binaryRight => exact ⟨_, rfl, Or.inl hright⟩
  | unary harg =>
    cases hpart with
    | unaryOperand => exact ⟨_, rfl, Or.inl harg⟩
  | apply h hargs =>
    cases hpart with
    | callCallee => exact ⟨_, rfl, Or.inl (.ident h)⟩
    | callArg harg => exact ⟨_, rfl, Or.inl (hargs _ (List.mem_of_getElem? harg))⟩
  | function h hargs =>
    cases hpart with
    | callCallee => exact ⟨_, rfl, Or.inr ⟨_, h, rfl⟩⟩
    | callArg harg => exact ⟨_, rfl, Or.inl (hargs _ (List.mem_of_getElem? harg))⟩

/-- A dotted name has a shorter one inside it. -/
theorem Expr.IsChain.exists_part {known : String → Prop} {e : Expr} (he : e.IsChain known)
    {slot : Slot} {node : Node} (hpart : Part (.expr e) slot node) :
    ∃ part, node = .expr part ∧ part.IsChain known := by
  cases he with
  | ident h => cases hpart
  | member h =>
    cases hpart with
    | memberObject => exact ⟨_, rfl, h⟩

/-- The parts of a value are values and dotted names. -/
theorem Expr.IsValue.part {e : Expr} (he : e.IsValue settings (settings.Known flow)) {slot : Slot}
    {node : Node} {above : Trail} (hpart : Part (.expr e) slot node) :
    Emitted settings flow depth ((slot, node) :: above) := by
  obtain ⟨part, rfl, hvalue | ⟨path, hpath, rfl⟩⟩ := he.exists_part Settings.known_context hpart
  · exact .value hvalue
  · exact .chain (Expr.isChain_path (Settings.known_mathFunctions hpath))

theorem Expr.IsChain.part {e : Expr} (he : e.IsChain (settings.Known flow)) {slot : Slot}
    {node : Node} {above : Trail} (hpart : Part (.expr e) slot node) :
    Emitted settings flow depth ((slot, node) :: above) := by
  obtain ⟨part, rfl, hchain⟩ := he.exists_part hpart
  exact .chain hchain

/-- The parts of the statement of a reached block. -/
theorem Emitted.block_part {block : Block} {stmt : Stmt} {slot slot' : Slot} {node : Node}
    {above : Trail} (hreached : block.reached settings ⊆ Flow.reached settings flow)
    (hstmt : block.toStmt settings (depth + above.loops) = .ok stmt)
    (hpart : Part (.stmt stmt) slot' node) :
    Emitted settings flow depth ((slot', node) :: (slot, .stmt stmt) :: above) := by
  have hmem : block ∈ Flow.reached settings flow := hreached (block.mem_reached settings)
  have hknown : ∀ name ∈ block.ownNames, settings.Known flow name := fun name hname =>
    Or.inl (Flow.ownNames_subset_of_mem_reached settings flow hmem hname)
  have hargs : ∀ name ∈ Arg.listNames block.args, settings.Known flow name := fun name hname =>
    hknown name (List.mem_append_right _ hname)
  have hoperand : ∀ n, (settings.operand block.args n).IsValue settings (settings.Known flow) :=
    Settings.isValue_operand hargs
  have hvalues : ∀ e ∈ Arg.toExprs settings block.args, e.IsValue settings (settings.Known flow) :=
    Arg.isValue_toExprs block.args hargs
  have hcontext : settings.context.IsChain (settings.Known flow) := .ident Settings.known_context
  cases Block.lowered_of_toStmt hstmt with
  | store =>
    cases hpart with
    | bindValue => exact .value (hoperand 0)
  | @perform name =>
    cases hpart with
    | exprValue =>
      refine .call (.ident (hknown name (List.mem_append_left _ (by simp [Head.names])))) ?_
      intro arg harg
      rw [List.mem_singleton.mp harg]
      exact .ident Settings.known_context
  | ifThen hbody =>
    cases hpart with
    | condTest => exact .value (hoperand 0)
    | condBody h => exact .of_body rfl hreached hbody (List.mem_of_getElem? h)
  | ifThenElse hbody helse =>
    have hinner := List.Subset.trans (Block.innerReached_append_subset rfl) hreached
    obtain ⟨hinner, hinner'⟩ := List.append_subset.mp hinner
    cases hpart with
    | condTest => exact .value (hoperand 0)
    | condBody h => exact .of_innerToStmts hinner hbody (List.mem_of_getElem? h)
    | condElse h => exact .of_innerToStmts hinner' helse (List.mem_of_getElem? h)
  | repeatTimes hbody =>
    cases hpart with
    | forInit => exact .counter (.init rfl)
    | forTest => exact .loopTest rfl (hoperand 0)
    | forUpdate => exact .loopUpdate rfl
    | forBody h =>
      -- The loop itself is the one that makes the depth of its body.
      refine .of_body rfl hreached ?_ (List.mem_of_getElem? h)
      rw [Trail.loops_cons]
      change Flow.innerToStmts settings (depth + UInt64.ofNat (above.loops + 1)) _ = _
      rw [UInt64.ofNat_add, ← UInt64.add_assoc]
      exact hbody
  | whileTest hbody =>
    cases hpart with
    | whileTest => exact .value (hoperand 0)
    | whileBody h => exact .of_body rfl hreached hbody (List.mem_of_getElem? h)
  | forever hbody =>
    cases hpart with
    | whileTest => exact .value (.literal _)
    | whileBody h => exact .of_body rfl hreached hbody (List.mem_of_getElem? h)
  | untilTest hbody =>
    cases hpart with
    | doTest => exact .value (hoperand 0)
    | doBody h => exact .of_body rfl hreached hbody (List.mem_of_getElem? h)
  | leave => cases hpart
  | switch hbody =>
    cases hpart with
    | switchSubject => exact .value (hoperand 0)
    | switchCase h => exact .of_body rfl hreached hbody (List.mem_of_getElem? h)
  | case hbody =>
    cases hpart with
    | caseTest => exact .value (hoperand 0)
    | caseBody h =>
      rcases List.mem_append.mp (List.mem_of_getElem? h) with h | h
      · exact .of_body rfl hreached hbody h
      · rw [List.mem_singleton.mp h]
        exact .caseEnd
  | defaultCase hbody =>
    cases hpart with
    | caseBody h => exact .of_body rfl hreached hbody (List.mem_of_getElem? h)
  | increment htarget =>
    cases hpart with
    | assignTarget => exact .value (hoperand 0)
    | assignValue => exact .value (.binary (hoperand 0) (hoperand 1))
  | incrementOne htarget =>
    cases hpart with
    | assignTarget => exact .value (hoperand 0)
    | assignValue => exact .value (.binary (hoperand 0) (.literal _))
  | decrementOne htarget =>
    cases hpart with
    | assignTarget => exact .value (hoperand 0)
    | assignValue => exact .value (.binary (hoperand 0) (.literal _))
  | setter hrole =>
    cases hpart with
    | assignTarget => exact .value (.property _)
    | assignValue => exact .value (hoperand 0)
  | method hrole =>
    cases hpart with
    | exprValue => exact .call (hcontext.memberPath _) hvalues
  | clamp hrole hbody =>
    have hinner := List.Subset.trans
      (Block.innerReached_subset_of_body (Head.inner_of_hasRole hrole)) hreached
    cases hpart with
    | exprValue =>
      exact .clampCall
        { stmt := ⟨_, hmem, _, rfl, hrole.isClampMethod, _, hstmt⟩
          callee := hcontext.memberPath _
          args := hvalues
          body := ⟨_, hinner, hbody⟩ }
  | print hrole =>
    cases hpart with
    | exprValue => exact .call (Expr.isChain_path Settings.known_log) hvalues

/-- **Stepping down stays on the list**: the parts of what is emitted are
    emitted. -/
theorem Emitted.part {slot slot' : Slot} {node node' : Node} {above : Trail}
    (h : Emitted settings flow depth ((slot, node) :: above)) (hpart : Part node slot' node') :
    Emitted settings flow depth ((slot', node') :: (slot, node) :: above) := by
  cases h with
  | block hreached hstmt => exact Emitted.block_part hreached hstmt hpart
  | caseEnd => cases hpart
  | value he => exact he.part hpart
  | chain he => exact he.part hpart
  | counter hheader =>
    cases hheader with
    | init hloop =>
      cases hpart with
      | bindValue => exact .value (.literal _)
    | testLeft hloop => cases hpart
    | updateTarget hloop => cases hpart
    | updateLeft hloop => cases hpart
  | loopTest hloop hbound =>
    cases hpart with
    | binaryLeft => exact .counter (.testLeft hloop)
    | binaryRight => exact .value hbound
  | loopUpdate hloop =>
    cases hpart with
    | assignTarget => exact .counter (.updateTarget hloop)
    | assignValue => exact .loopValue hloop
  | loopValue hloop =>
    cases hpart with
    | binaryLeft => exact .counter (.updateLeft hloop)
    | binaryRight => exact .value (.literal _)
  | call hcallee hargs =>
    cases hpart with
    | callCallee => exact .chain hcallee
    | callArg harg => exact .value (hargs _ (List.mem_of_getElem? harg))
  | clampCall hcall =>
    cases hpart with
    | callCallee => exact .chain hcall.callee
    | callArg harg =>
      -- The last argument is the callback, and the others are values.
      rcases getElem?_eq_or_last harg with harg | ⟨rfl, rfl⟩
      · exact .value (hcall.args _ (List.mem_of_getElem? harg))
      · exact .callback hcall
  | callback hcall =>
    obtain ⟨body, hinner, hbody⟩ := hcall.body
    cases hpart with
    | closureBody hs =>
      rcases getElem?_eq_or_last hs with hs | ⟨rfl, rfl⟩
      · exact .of_innerToStmts hinner hbody (List.mem_of_getElem? hs)
      · exact .callbackEnd
  | callbackEnd =>
    cases hpart with
    | retValue => exact .value (.property _)

/-- **All trails through a compiled flow are emitted.** -/
theorem Flow.emitted_of_toStmts {stmts : List Stmt}
    (h : Flow.toStmts settings depth flow = .ok stmts) {t : Trail}
    (ht : IsTrail (.program ⟨stmts⟩) t) (hne : t ≠ []) : Emitted settings flow depth t := by
  refine ht.invariant ?_ Emitted.part hne
  intro slot node hpart
  cases hpart with
  | program hs =>
    refine .of_toStmts (List.Subset.refl _) ?_ (List.mem_of_getElem? hs)
    -- No loop lies above the root.
    rw [show depth + (Trail.loops [] : Nat) = depth from UInt64.add_zero depth]
    exact h

end emitted

end BlockFlow
