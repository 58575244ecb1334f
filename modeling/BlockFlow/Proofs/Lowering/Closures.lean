import BlockFlow.Proofs.Lowering.Assembled
import BlockFlow.Proofs.Lowering.Skeleton

/-! # Closures and their ends

    A compiled program has closures in three places: as the value of an
    action, as the argument that makes a mouse, and as the callback of a
    clamp. Each of them ends by returning a marker, and nothing else in a
    program returns.

    - `ClosureAt` describes the three places, with the parameters and the
      marker that belong to each.
    - `EndsFlows` says so of all closures and all returns of a program, and
      traces what it evaluates back to the blocks of its flows.
    - `PassesArgs` says which arguments the call of a method has.
    - **Main statement** (`Source.endsFlows_of_compile`): it holds of every
      compiled program. -/

namespace BlockFlow

/-! ## Section 1: Places of closures -/

/-- **Places of closures**: the parameters of a closure, the marker that it
    returns, its slot, and the trail to what it stands in. -/
inductive ClosureAt (settings : Settings) (source : Source) (closure : Expr) :
    List String → String → Slot → Trail → Prop where
  /-- An action declares it, as a statement of the program. -/
  | action {i : Nat} {name : String} :
      ClosureAt settings source closure [settings.conventions.context]
        settings.conventions.endOfFlow .value [(.body i, .stmt (.bind name closure))]
  /-- A mouse is made with it and nothing else, by a statement of the
      program. -/
  | mouse {i : Nat} {callee : Expr} :
      ClosureAt settings source closure [settings.conventions.context]
        settings.conventions.endOfProgram (.arg 0)
        [(.value, .expr (.call callee [closure] .construct)),
          (.body i, .stmt (.expr (.call callee [closure] .construct)))]
  /-- A clamp of one of the flows passes it on, as the last argument of a
      statement that is awaited. -/
  | clamp {flow : Flow} {slot : Slot} {callee : Expr} {args : List Expr} {above : Trail}
      (hflow : flow ∈ source.flows)
      (hclamp : Flow.IsClampStmt settings flow (.expr (.call callee (args ++ [closure]) .suspend))) :
      ClosureAt settings source closure [] settings.conventions.endOfFlow (.arg args.length)
        ((.value, .expr (.call callee (args ++ [closure]) .suspend)) ::
          (slot, .stmt (.expr (.call callee (args ++ [closure]) .suspend))) :: above)

/-- A closure in its place: it is asynchronous, stands in one of the three
    places, and ends by returning its marker, an attribute of the context. -/
structure IsPlaced (settings : Settings) (source : Source) (params : List String)
    (body : List Stmt) (isAsync : Bool) (slot : Slot) (above : Trail) : Prop where
  /-- It is asynchronous. -/
  async : isAsync = true
  /-- It stands in one of the places, and returns the marker of that place. -/
  place : ∃ marker,
    ClosureAt settings source (.closure params body isAsync) params marker slot above ∧
    body.getLast? = some (.ret (.member (.ident settings.conventions.context) marker))

/-- The last slot in the body of a closure. -/
def IsClosureEnd (slot : Slot) (above : Trail) : Prop :=
  ∃ i slot' params body isAsync rest, slot = .body i ∧ i + 1 = body.length ∧
    above = (slot', .expr (.closure params body isAsync)) :: rest

/-- **Closures and returns of a program.** -/
structure EndsFlows (settings : Settings) (source : Source) (p : Program) : Prop where
  /-- Every closure is in its place. -/
  closure : ∀ {slot : Slot} {params : List String} {body : List Stmt} {isAsync : Bool}
    {above : Trail}, IsTrail (.program p) ((slot, .expr (.closure params body isAsync)) :: above) →
      IsPlaced settings source params body isAsync slot above
  /-- Every return is the last statement of a closure. -/
  ret : ∀ {slot : Slot} {e : Expr} {above : Trail},
    IsTrail (.program p) ((slot, .stmt (.ret e)) :: above) → IsClosureEnd slot above
  /-- Every evaluated expression, those of the program itself apart, is the
      statement of a reached block. -/
  origin : ∀ {slot : Slot} {e : Expr} {above : Trail},
    IsTrail (.program p) ((slot, .stmt (.expr e)) :: above) → above ≠ [] →
      ∃ flow ∈ source.flows, ∃ block ∈ Flow.reached settings flow, ∃ depth,
        block.toStmt settings depth = .ok (.expr e)

section places

variable {settings : Settings}

theorem getLast?_append_endMarker (stmts : List Stmt) (marker : String) :
    (stmts ++ [settings.endMarker marker]).getLast? =
      some (.ret (.member (.ident settings.conventions.context) marker)) :=
  List.getLast?_concat

theorem isClosureEnd_append (slot : Slot) (params : List String) (stmts : List Stmt) (last : Stmt)
    (isAsync : Bool) (rest : Trail) :
    IsClosureEnd (.body stmts.length)
      ((slot, .expr (.closure params (stmts ++ [last]) isAsync)) :: rest) :=
  ⟨_, _, _, _, _, _, rfl, by simp, rfl⟩

theorem Expr.IsChain.not_closure {known : String → Prop} {params : List String}
    {body : List Stmt} {isAsync : Bool} :
    ¬ (Expr.closure params body isAsync).IsChain known := by
  intro h
  cases h

theorem Expr.IsValue.not_closure {known : String → Prop} {params : List String}
    {body : List Stmt} {isAsync : Bool} :
    ¬ (Expr.closure params body isAsync).IsValue settings known := by
  intro h
  cases h

/-- A block never becomes a return. -/
theorem Lowered.not_ret {inner : Depth → Option Flow → List Stmt → Prop} {depth : Depth}
    {block : Block} {e : Expr} : ¬ Lowered settings inner depth block (.ret e) := by
  intro h
  cases h

variable {source : Source} {slot : Slot} {above : Trail}

/-- The closures of a compiled flow are callbacks. -/
theorem Emitted.isPlaced {flow : Flow} {depth : Depth} {params : List String} {body : List Stmt}
    {isAsync : Bool} (hflow : flow ∈ source.flows)
    (h : Emitted settings flow depth ((slot, .expr (.closure params body isAsync)) :: above)) :
    IsPlaced settings source params body isAsync slot above := by
  cases h with
  | value he => exact absurd he Expr.IsValue.not_closure
  | chain he => exact absurd he Expr.IsChain.not_closure
  | counter hheader => cases hheader
  | callback hcall =>
    exact ⟨rfl, _, .clamp hflow hcall.stmt, getLast?_append_endMarker _ _⟩

theorem Assembled.isPlaced {params : List String} {body : List Stmt} {isAsync : Bool}
    (h : Assembled settings source ((slot, .expr (.closure params body isAsync)) :: above)) :
    IsPlaced settings source params body isAsync slot above := by
  cases h with
  | action hflow hstmts => exact ⟨rfl, _, .action, getLast?_append_endMarker _ _⟩
  | mouse hflow hstmts => exact ⟨rfl, _, .mouse, getLast?_append_endMarker _ _⟩
  | chain he => exact absurd he Expr.IsChain.not_closure
  | flow hflow h => exact h.isPlaced hflow

/-- What returns stands at the end of a closure. -/
theorem Emitted.isClosureEnd {flow : Flow} {depth : Depth} {e : Expr}
    (h : Emitted settings flow depth ((slot, .stmt (.ret e)) :: above)) : IsClosureEnd slot above := by
  cases h with
  | block hreached hstmt => exact absurd (Block.lowered_of_toStmt hstmt) Lowered.not_ret
  | counter hheader => cases hheader
  | callbackEnd => exact isClosureEnd_append _ _ _ _ _ _

theorem Assembled.isClosureEnd {e : Expr}
    (h : Assembled settings source ((slot, .stmt (.ret e)) :: above)) : IsClosureEnd slot above := by
  cases h with
  | top h => cases h
  | entryEnd => exact isClosureEnd_append _ _ _ _ _ _
  | flow hflow h => exact h.isClosureEnd

/-- What is evaluated inside a program comes from a block. -/
theorem Assembled.exists_block {e : Expr}
    (h : Assembled settings source ((slot, .stmt (.expr e)) :: above)) (hne : above ≠ []) :
    ∃ flow ∈ source.flows, ∃ block ∈ Flow.reached settings flow, ∃ depth,
      block.toStmt settings depth = .ok (.expr e) := by
  cases h with
  | top h => exact absurd rfl hne
  | @flow flow t hflow h =>
    cases h with
    | @block _ block stmt _ hreached hstmt =>
      exact ⟨flow, hflow, block, hreached (block.mem_reached settings), _, hstmt⟩
    | counter hheader => cases hheader

end places

/-! ## Section 2: Arguments of methods -/

/-- **Arguments of a method**: a statement that awaits a call, with as many
    values as the block has arguments, and a closure behind them exactly if
    there is a callback. -/
def PassesArgs (args : List Arg) (callback : Bool) (stmt : Stmt) : Prop :=
  ∃ callee values closures, stmt = .expr (.call callee (values ++ closures) .suspend) ∧
    values.length = args.length ∧ (∀ value ∈ values, value.isClosure = false) ∧
    closures.length = (if callback then 1 else 0) ∧ ∀ closure ∈ closures, closure.isClosure = true

theorem Arg.length_toExprs (settings : Settings) (args : List Arg) :
    (Arg.toExprs settings args).length = args.length := by
  induction args with
  | nil => rfl
  | cons arg args ih => rw [Arg.toExprs, List.length_cons, List.length_cons, ih]

theorem Settings.role_of_method? {settings : Settings} {opcode name : String}
    (hcontrol : opcode ∉ controlOpcodes) (hsetter : settings.tables.setter? opcode = none)
    (hmethod : settings.tables.method? opcode = some name) :
    settings.role opcode = .method name (settings.tables.isClamp opcode) := by
  simp [Settings.role, Construct.ofOpcode?_eq_none_iff.mpr hcontrol, hsetter, hmethod]

/-- The call of a method passes the arguments of its block, and a callback if
    it is a clamp. -/
theorem Block.passesArgs_of_toStmt {settings : Settings} {depth : Depth} {opcode name : String}
    {args : List Arg} {body orElse : Option Flow} {stmt : Stmt}
    (hcontrol : opcode ∉ controlOpcodes) (hsetter : settings.tables.setter? opcode = none)
    (hmethod : settings.tables.method? opcode = some name)
    (h : Block.toStmt settings depth ⟨.op opcode, args, body, orElse⟩ = .ok stmt) :
    PassesArgs args (settings.tables.isClamp opcode) stmt := by
  have hlength := Arg.length_toExprs settings args
  have hvalues := Arg.toExprs_isClosure settings args
  rw [Block.toStmt, Settings.role_of_method? hcontrol hsetter hmethod] at h
  cases hclamp : settings.tables.isClamp opcode with
  | false =>
    rw [hclamp] at h
    cases h
    exact ⟨_, _, [], by rw [List.append_nil]; rfl, hlength, hvalues, rfl, by simp⟩
  | true =>
    rw [hclamp] at h
    obtain ⟨stmts, hbody, rfl⟩ := exists_of_bind_return_eq_ok h
    refine ⟨_, _, [settings.callback stmts], rfl, hlength, hvalues, rfl, ?_⟩
    intro closure hclosure
    rw [List.mem_singleton.mp hclosure]
    rfl

/-! ## Section 3: Compiled programs -/

/-- **Closures and end markers.** In a compiled program, closures stand only
    in actions, in the making of mice and behind the arguments of clamps, and
    each ends by returning its marker; nothing else returns. The call of a
    method has the arguments of its block, and one more exactly if it is a
    clamp. -/
theorem Source.endsFlows_of_compile {settings : Settings} {source : Source} {p : Program}
    (h : source.compile settings = .ok p) :
    EndsFlows settings source p ∧
    ∀ (depth : Depth) (opcode name : String) (args : List Arg) (body orElse : Option Flow)
      (stmt : Stmt), opcode ∉ controlOpcodes → settings.tables.setter? opcode = none →
      settings.tables.method? opcode = some name →
      Block.toStmt settings depth ⟨.op opcode, args, body, orElse⟩ = .ok stmt →
        PassesArgs args (settings.tables.isClamp opcode) stmt := by
  constructor
  · constructor
    · intro slot params body isAsync above ht
      exact (Source.assembled_of_compile h ht (List.cons_ne_nil _ _)).isPlaced
    · intro slot e above ht
      exact (Source.assembled_of_compile h ht (List.cons_ne_nil _ _)).isClosureEnd
    · intro slot e above ht hne
      exact (Source.assembled_of_compile h ht (List.cons_ne_nil _ _)).exists_block hne
  · intro depth opcode name args body orElse stmt hcontrol hsetter hmethod hstmt
    exact Block.passesArgs_of_toStmt hcontrol hsetter hmethod hstmt

/-- An action and a mouse that share a clamp without a flow in it. -/
theorem Source.endsFlows_of_compile_clamp_in_project :
    let settings : Settings :=
      ⟨{ methods := [("setbeat", "beat.set")], clamps := ["setbeat"] }, {}⟩
    let clamp : Block := ⟨.op "setbeat", [.box "x", .null], none, none⟩
    let source : Source := .project ⟨[("f", [clamp])], [[clamp]]⟩
    ∃ p stmt, source.compile settings = .ok p ∧ clamp.toStmt settings 0 = .ok stmt ∧
      EndsFlows settings source p ∧ PassesArgs clamp.args true stmt := by
  intro settings clamp source
  have hsource : source.compile settings = .ok _ := rfl
  have hclamp : clamp.toStmt settings 0 = .ok _ := rfl
  have hends := Source.endsFlows_of_compile hsource
  exact ⟨_, _, hsource, hclamp, hends.1,
    hends.2 0 "setbeat" "beat.set" clamp.args none none _ (by decide) rfl rfl hclamp⟩

end BlockFlow
