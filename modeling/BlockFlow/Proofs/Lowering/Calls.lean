import BlockFlow.Proofs.Lowering.Closures

/-! # Calls and assignments

    A compiled program calls functions in four ways, and the mode of a call
    says which: values are computed by plain calls, actions and methods are
    awaited, printing is plain again, and only mice are made. It assigns to
    variables and to attributes of the context.

    - `Expr.IsFunction` and `Expr.HasProperty` describe what can be called.
    - `BlockCall` lists the calls that blocks become.
    - `KeepsModes` says all of this of a program, for every node that a trail
      leads to.
    - **Main statement** (`Source.keepsModes_of_compile`): it holds of every
      compiled program.

    What stands at the end of a trail is known (`Assembled`), so each part is
    read off from one list: the values that arguments become, the statements
    that blocks become, and the few statements around the flows. -/

namespace BlockFlow

/-! ## Section 1: What is called and assigned to -/

/-- A function that computes a value: one with a plain name, or one of the
    mathematical ones. -/
inductive Expr.IsFunction : Expr → Prop where
  | named (name : String) : IsFunction (.ident name)
  | math {name : String} (h : name ∈ ["abs", "sqrt", "pow", "floor"]) :
      IsFunction (.member (.ident "Math") name)

/-- An object has properties, and the properties of these: the member chains
    that lead at least one step away from it. -/
inductive Expr.HasProperty (object : Expr) : Expr → Prop where
  | direct {property : String} : HasProperty object (.member object property)
  | further {inner : Expr} {property : String} (h : HasProperty object inner) :
      HasProperty object (.member inner property)

/-- **Calls of blocks**: what a block evaluates. -/
inductive BlockCall (settings : Settings) : Expr → List Expr → CallMode → Prop where
  /-- An action is awaited, with nothing but the context. -/
  | action (name : String) :
      BlockCall settings (.ident name) [.ident settings.conventions.context] .suspend
  /-- A method of the context is awaited. -/
  | method {callee : Expr} {args : List Expr}
      (h : (Expr.ident settings.conventions.context).HasProperty callee) :
      BlockCall settings callee args .suspend
  /-- Printing is not awaited. -/
  | print {args : List Expr} : BlockCall settings (.path settings.conventions.log) args .plain

/-- **Targets**: a variable or an attribute of the context. -/
inductive Settings.Assignable (settings : Settings) : Expr → Prop where
  | variable (name : String) : Assignable settings (.ident name)
  | attribute (name : String) :
      Assignable settings (.member (.ident settings.conventions.context) name)

/-- The expression of a statement that does nothing but evaluate it. -/
def IsEvaluated (slot : Slot) (above : Trail) : Prop :=
  ∃ slot' e rest, slot = .value ∧ above = (slot', .stmt (.expr e)) :: rest

/-- A trail that has entered a closure. -/
def Trail.InClosure (t : Trail) : Prop :=
  ∃ slot params body isAsync, (slot, Node.expr (.closure params body isAsync)) ∈ t

/-- **Modes of calls and targets of assignments.** -/
structure KeepsModes (settings : Settings) (p : Program) : Prop where
  /-- A call that is no statement of its own is plain, and calls a function. -/
  value : ∀ {slot : Slot} {callee : Expr} {args : List Expr} {mode : CallMode} {above : Trail},
    IsTrail (.program p) ((slot, .expr (.call callee args mode)) :: above) →
      ¬ IsEvaluated slot above → mode = .plain ∧ callee.IsFunction
  /-- A call that is a statement inside a closure is that of a block. -/
  block : ∀ {slot : Slot} {callee : Expr} {args : List Expr} {mode : CallMode} {above : Trail},
    IsTrail (.program p) ((slot, .stmt (.expr (.call callee args mode))) :: above) →
      above.InClosure → BlockCall settings callee args mode
  /-- Only statements of the program make objects, namely mice. -/
  construct : ∀ {slot : Slot} {callee : Expr} {args : List Expr} {above : Trail},
    IsTrail (.program p) ((slot, .expr (.call callee args .construct)) :: above) →
      callee = .path settings.conventions.entity ∧ slot = .value ∧
        ∃ i, above = [(.body i, .stmt (.expr (.call callee args .construct)))]
  /-- Every assignment is to a variable or an attribute of the context. -/
  target : ∀ {slot : Slot} {target value : Expr} {above : Trail},
    IsTrail (.program p) ((slot, .stmt (.assign target value)) :: above) →
      settings.Assignable target

/-! ## Section 2: Values -/

theorem Expr.isFunction_path {path : String} (h : path ∈ mathFunctions) :
    (Expr.path path).IsFunction := by
  simp only [mathFunctions, List.mem_cons, List.not_mem_nil, or_false] at h
  rcases h with rfl | rfl | rfl | rfl
  · exact @IsFunction.math "abs" (by decide)
  · exact @IsFunction.math "sqrt" (by decide)
  · exact @IsFunction.math "pow" (by decide)
  · exact @IsFunction.math "floor" (by decide)

section values

variable {settings : Settings} {known : String → Prop}

theorem Expr.IsValue.plain_and_isFunction {callee : Expr} {args : List Expr} {mode : CallMode}
    (h : (Expr.call callee args mode).IsValue settings known) :
    mode = .plain ∧ callee.IsFunction := by
  generalize he : Expr.call callee args mode = e at h
  cases h with
  | apply hopcode hargs =>
    cases he
    exact ⟨rfl, .named _⟩
  | function hpath hargs =>
    cases he
    exact ⟨rfl, Expr.isFunction_path hpath⟩
  | literal v => cases he
  | ident h => cases he
  | property name => cases he
  | binary hleft hright => cases he
  | unary harg => cases he

/-- Of the values, variables and attributes of the context can be assigned
    to. -/
theorem Expr.IsValue.assignable {e : Expr} (h : e.IsValue settings known)
    (htarget : e.isTarget = true) : settings.Assignable e := by
  cases h with
  | ident h => exact .variable _
  | property name => exact .attribute name
  | literal v => cases htarget
  | binary hleft hright => cases htarget
  | unary harg => cases htarget
  | apply h hargs => cases htarget
  | function h hargs => cases htarget

end values

/-! ## Section 3: Blocks -/

section blocks

variable {settings : Settings} {inner : Depth → Option Flow → List Stmt → Prop} {depth : Depth}
  {block : Block}

theorem Expr.HasProperty.members {object e : Expr} (h : object.HasProperty e)
    (pieces : List (List Char)) : object.HasProperty (members e pieces) := by
  induction pieces generalizing e with
  | nil => exact h
  | cons piece pieces ih => exact ih (.further h)

/-- However few dots a name has, it leads at least one step away. -/
theorem Expr.hasProperty_memberPath (object : Expr) (dotted : String) :
    object.HasProperty (object.memberPath dotted) :=
  Expr.HasProperty.members .direct _

theorem Lowered.blockCall {callee : Expr} {args : List Expr} {mode : CallMode}
    (h : Lowered settings inner depth block (.expr (.call callee args mode))) :
    BlockCall settings callee args mode := by
  cases h with
  | perform => exact .action _
  | method hrole => exact .method (Expr.hasProperty_memberPath _ _)
  | clamp hrole hbody => exact .method (Expr.hasProperty_memberPath _ _)
  | print hrole => exact .print

theorem Lowered.assignable {target value : Expr}
    (h : Lowered settings inner depth block (.assign target value)) :
    settings.Assignable target := by
  have hoperand : ∀ args, (settings.operand args 0).IsValue settings fun _ => True :=
    fun args => Settings.isValue_operand (fun _ _ => trivial) 0
  cases h with
  | increment htarget => exact (hoperand _).assignable htarget
  | incrementOne htarget => exact (hoperand _).assignable htarget
  | decrementOne htarget => exact (hoperand _).assignable htarget
  | setter hrole => exact .attribute _

theorem BlockCall.ne_construct {callee : Expr} {args : List Expr} {mode : CallMode}
    (h : BlockCall settings callee args mode) : mode ≠ .construct := by
  cases h <;> simp

end blocks

/-! ## Section 4: Whole programs -/

section programs

variable {settings : Settings} {source : Source} {slot : Slot} {above : Trail}

/-- A call in a compiled flow is a statement, or computes a value. -/
theorem Emitted.isEvaluated_or_plain {flow : Flow} {depth : Depth} {callee : Expr}
    {args : List Expr} {mode : CallMode}
    (h : Emitted settings flow depth ((slot, .expr (.call callee args mode)) :: above)) :
    IsEvaluated slot above ∨ mode = .plain ∧ callee.IsFunction := by
  cases h with
  | value he => exact Or.inr he.plain_and_isFunction
  | chain he => cases he
  | counter hheader => cases hheader
  | call hcallee hargs => exact Or.inl ⟨_, _, _, rfl, rfl⟩
  | clampCall hcall => exact Or.inl ⟨_, _, _, rfl, rfl⟩

theorem Assembled.isEvaluated_or_plain {callee : Expr} {args : List Expr} {mode : CallMode}
    (h : Assembled settings source ((slot, .expr (.call callee args mode)) :: above)) :
    IsEvaluated slot above ∨ mode = .plain ∧ callee.IsFunction := by
  cases h with
  | mouseCall hflow hstmts => exact Or.inl ⟨_, _, _, rfl, rfl⟩
  | startCall => exact Or.inl ⟨_, _, _, rfl, rfl⟩
  | chain he => cases he
  | flow hflow h => exact h.isEvaluated_or_plain

/-- A call that is a statement, but none of the program itself, is that of a
    block. -/
theorem Assembled.blockCall {callee : Expr} {args : List Expr} {mode : CallMode}
    (h : Assembled settings source ((slot, .stmt (.expr (.call callee args mode))) :: above))
    (hne : above ≠ []) : BlockCall settings callee args mode := by
  obtain ⟨flow, hflow, block, hblock, depth, hstmt⟩ := h.exists_block hne
  exact (Block.lowered_of_toStmt hstmt).blockCall

theorem Emitted.assignable {flow : Flow} {depth : Depth} {target value : Expr}
    (h : Emitted settings flow depth ((slot, .stmt (.assign target value)) :: above)) :
    settings.Assignable target := by
  cases h with
  | block hreached hstmt => exact (Block.lowered_of_toStmt hstmt).assignable
  | counter hheader => cases hheader
  | loopUpdate hloop => exact .variable _

theorem Assembled.assignable {target value : Expr}
    (h : Assembled settings source ((slot, .stmt (.assign target value)) :: above)) :
    settings.Assignable target := by
  cases h with
  | top h => cases h
  | flow hflow h => exact h.assignable

theorem TopLevel.entity_of_construct {callee : Expr} {args : List Expr}
    (h : TopLevel settings source (.expr (.call callee args .construct))) :
    callee = .path settings.conventions.entity := by
  cases h with
  | mouse hflow hstmts => rfl

/-- What makes an object is a statement of the program. -/
theorem Source.construct_of_compile {p : Program} (h : source.compile settings = .ok p)
    {callee : Expr} {args : List Expr}
    (ht : IsTrail (.program p) ((slot, .expr (.call callee args .construct)) :: above)) :
    callee = .path settings.conventions.entity ∧ slot = .value ∧
      ∃ i, above = [(.body i, .stmt (.expr (.call callee args .construct)))] := by
  have hcall := Source.assembled_of_compile h ht (List.cons_ne_nil _ _)
  rcases hcall.isEvaluated_or_plain with ⟨slot', e, rest, rfl, rfl⟩ | ⟨hplain, -⟩
  · -- The statement around the call is either one of the program or a block's.
    cases ht with
    | cons hstmt hpart =>
      cases hpart
      cases rest with
      | nil =>
        cases hstmt with
        | cons hroot hpart =>
          cases hpart with
          | program hs =>
            have htop := Source.topLevel_of_compile h (List.mem_of_getElem? hs)
            exact ⟨htop.entity_of_construct, rfl, _, rfl⟩
      | cons last rest =>
        have hassembled := Source.assembled_of_compile h hstmt (List.cons_ne_nil _ _)
        exact absurd rfl (hassembled.blockCall (List.cons_ne_nil _ _)).ne_construct
  · cases hplain

end programs

/-- **Modes of calls and targets of assignments.** In a compiled program,
    expressions hold no calls but plain ones of named and mathematical
    functions. What blocks evaluate is an action or a method of the context,
    both awaited, or prints. Mice are made by statements of the program only,
    and assignments go to variables and attributes of the context. -/
theorem Source.keepsModes_of_compile {settings : Settings} {source : Source} {p : Program}
    (h : source.compile settings = .ok p) : KeepsModes settings p := by
  have hassembled : ∀ {slot : Slot} {node : Node} {above : Trail},
      IsTrail (.program p) ((slot, node) :: above) →
        Assembled settings source ((slot, node) :: above) :=
    fun ht => Source.assembled_of_compile h ht (List.cons_ne_nil _ _)
  constructor
  · intro slot callee args mode above ht hvalue
    exact (hassembled ht).isEvaluated_or_plain.resolve_left hvalue
  · intro slot callee args mode above ht hclosure
    refine (hassembled ht).blockCall ?_
    rintro rfl
    obtain ⟨slot', params, body, isAsync, hmem⟩ := hclosure
    simp at hmem
  · intro slot callee args above ht
    exact Source.construct_of_compile h ht
  · intro slot target value above ht
    exact (hassembled ht).assignable

/-- A mouse with a clamp, whose argument holds a call inside a call, and whose
    callback changes an attribute. -/
theorem Source.keepsModes_of_compile_nested :
    let settings : Settings :=
      ⟨{ getters := [("pitch", "pitch")], methods := [("note", "play.note")], clamps := ["note"] },
        {}⟩
    let flow : Flow :=
      [⟨.op "note", [.apply "power" [.box "x", .apply "f" []]],
        some [⟨.op "increment", [.apply "pitch" []], none, none⟩], none⟩]
    ∃ p t t' value, (Source.mouse flow).compile settings = .ok p ∧
      IsTrail (.program p) ((.arg 1, .expr (.call (.ident "f") [] .plain)) :: t) ∧
      IsTrail (.program p)
        ((.body 0, .stmt (.assign (.member (.ident "mouse") "pitch") value)) :: t') ∧
      Trail.InClosure t' ∧ KeepsModes settings p := by
  intro settings flow
  let p := ((Source.mouse flow).compile settings).toOption.getD default
  have hmouse : (Source.mouse flow).compile settings = .ok p := rfl
  -- From the call that makes the mouse into its closure, and on to the clamp.
  have hstmt : IsTrail (.program p) _ := .cons .nil (.program (i := 0) rfl)
  have hentry := (hstmt.cons .exprValue).cons (.callArg (i := 0) rfl)
  have hclamp := (hentry.cons (.closureBody (i := 0) rfl)).cons .exprValue
  have hinner := (hclamp.cons (.callArg (i := 0) rfl)).cons (.callArg (i := 1) rfl)
  have hcallback := hclamp.cons (.callArg (i := 1) rfl)
  have hassign := hcallback.cons (.closureBody (i := 0) rfl)
  exact ⟨p, _, _, _, hmouse, hinner, hassign, ⟨_, _, _, _, List.mem_cons_self⟩,
    Source.keepsModes_of_compile hmouse⟩

end BlockFlow
