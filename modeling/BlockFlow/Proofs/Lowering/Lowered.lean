import BlockFlow.Lowering.Statement
import BlockFlow.Proofs.Lowering.Role

/-! # What lowering can do

    `Lowered` lists once and for all the statements that a block can become,
    with a relation in place of the lowering of its inner flows. It is a
    single step: the relation does not refer to itself.

    - `Block.lowered_of_toStmt`: whatever `Block.toStmt` returns is on the list.
    - `Flow.toStmts_induction`: to prove something of every compiled flow, it
      is enough to prove it for each entry of the list, given that it holds
      for the inner flows.

    Invariants of compiled flows are proved from `Flow.toStmts_induction`, and
    do not look into the recursion again. -/

namespace BlockFlow

/-! ## Section 1: Targets -/

/-- An expression that can be assigned to: a name or a property. -/
def Expr.isTarget : Expr → Bool
  | .ident _ | .member _ _ => true
  | _ => false

theorem Settings.changeBy_eq (opcode : String) (target : Expr) (op : BinaryOp) (amount : Expr) :
    Settings.changeBy opcode target op amount =
      if target.isTarget then .ok (.assign target (.binary op target amount))
      else .error (.invalidTarget opcode target) := by
  cases target <;> rfl

/-- A change that succeeds is an assignment to a target. -/
theorem Settings.changeBy_eq_ok {opcode : String} {target : Expr} {op : BinaryOp} {amount : Expr}
    {stmt : Stmt} (h : Settings.changeBy opcode target op amount = .ok stmt) :
    target.isTarget = true ∧ stmt = .assign target (.binary op target amount) := by
  rw [Settings.changeBy_eq] at h
  split at h
  · next htarget => exact ⟨htarget, (Except.ok.inj h).symm⟩
  · cases h

/-! ## Section 2: The step -/

/-- A relation between flows and statements, for flows that may be missing:
    a missing flow becomes no statement. -/
def InnerFlow (onFlow : Depth → Flow → List Stmt → Prop) (depth : Depth) :
    Option Flow → List Stmt → Prop
  | none, stmts => stmts = []
  | some flow, stmts => onFlow depth flow stmts

/-- **One step of lowering**: the statement of a block at a depth, where
    `inner` relates inner flows to their statements. -/
inductive Lowered (settings : Settings) (inner : Depth → Option Flow → List Stmt → Prop)
    (depth : Depth) : Block → Stmt → Prop where
  | store {name : String} {args : List Arg} {body orElse : Option Flow} :
      Lowered settings inner depth ⟨.store name, args, body, orElse⟩
        (.bind name (settings.operand args 0))
  | perform {name : String} {args : List Arg} {body orElse : Option Flow} :
      Lowered settings inner depth ⟨.perform name, args, body, orElse⟩
        (settings.performAction name)
  | ifThen {args : List Arg} {body orElse : Option Flow} {stmts : List Stmt}
      (hbody : inner depth body stmts) :
      Lowered settings inner depth ⟨.op "if", args, body, orElse⟩
        (.cond (settings.operand args 0) stmts none)
  | ifThenElse {args : List Arg} {body orElse : Option Flow} {stmts others : List Stmt}
      (hbody : inner depth body stmts) (helse : inner depth orElse others) :
      Lowered settings inner depth ⟨.op "ifthenelse", args, body, orElse⟩
        (.cond (settings.operand args 0) stmts (some others))
  /-- The only entry whose inner flow lies one counted loop deeper. -/
  | repeatTimes {args : List Arg} {body orElse : Option Flow} {stmts : List Stmt}
      (hbody : inner (depth + 1) body stmts) :
      Lowered settings inner depth ⟨.op "repeat", args, body, orElse⟩
        (settings.countedLoop depth (settings.operand args 0) stmts)
  | whileTest {args : List Arg} {body orElse : Option Flow} {stmts : List Stmt}
      (hbody : inner depth body stmts) :
      Lowered settings inner depth ⟨.op "while", args, body, orElse⟩
        (.whileLoop (settings.operand args 0) stmts)
  | forever {args : List Arg} {body orElse : Option Flow} {stmts : List Stmt}
      (hbody : inner depth body stmts) :
      Lowered settings inner depth ⟨.op "forever", args, body, orElse⟩
        (.whileLoop (.literal (.bool true)) stmts)
  | untilTest {args : List Arg} {body orElse : Option Flow} {stmts : List Stmt}
      (hbody : inner depth body stmts) :
      Lowered settings inner depth ⟨.op "until", args, body, orElse⟩
        (.doWhile stmts (settings.operand args 0))
  | leave {args : List Arg} {body orElse : Option Flow} :
      Lowered settings inner depth ⟨.op "break", args, body, orElse⟩ .brk
  | switch {args : List Arg} {body orElse : Option Flow} {stmts : List Stmt}
      (hbody : inner depth body stmts) :
      Lowered settings inner depth ⟨.op "switch", args, body, orElse⟩
        (.switch (settings.operand args 0) stmts)
  | case {args : List Arg} {body orElse : Option Flow} {stmts : List Stmt}
      (hbody : inner depth body stmts) :
      Lowered settings inner depth ⟨.op "case", args, body, orElse⟩
        (.case (some (settings.operand args 0)) (stmts ++ [.brk]))
  | defaultCase {args : List Arg} {body orElse : Option Flow} {stmts : List Stmt}
      (hbody : inner depth body stmts) :
      Lowered settings inner depth ⟨.op "defaultcase", args, body, orElse⟩
        (.case none stmts)
  | increment {args : List Arg} {body orElse : Option Flow}
      (htarget : (settings.operand args 0).isTarget = true) :
      Lowered settings inner depth ⟨.op "increment", args, body, orElse⟩
        (.assign (settings.operand args 0)
          (.binary .add (settings.operand args 0) (settings.operand args 1)))
  | incrementOne {args : List Arg} {body orElse : Option Flow}
      (htarget : (settings.operand args 0).isTarget = true) :
      Lowered settings inner depth ⟨.op "incrementOne", args, body, orElse⟩
        (.assign (settings.operand args 0)
          (.binary .add (settings.operand args 0) (.literal (.integer 1))))
  | decrementOne {args : List Arg} {body orElse : Option Flow}
      (htarget : (settings.operand args 0).isTarget = true) :
      Lowered settings inner depth ⟨.op "decrementOne", args, body, orElse⟩
        (.assign (settings.operand args 0)
          (.binary .sub (settings.operand args 0) (.literal (.integer 1))))
  | setter {opcode property : String} {args : List Arg} {body orElse : Option Flow}
      (hrole : settings.HasRole opcode (.setter property)) :
      Lowered settings inner depth ⟨.op opcode, args, body, orElse⟩
        (settings.assignProperty property args)
  | method {opcode name : String} {args : List Arg} {body orElse : Option Flow}
      (hrole : settings.HasRole opcode (.method name false)) :
      Lowered settings inner depth ⟨.op opcode, args, body, orElse⟩
        (settings.awaitMethod name (Arg.toExprs settings args))
  | clamp {opcode name : String} {args : List Arg} {body orElse : Option Flow}
      {stmts : List Stmt}
      (hrole : settings.HasRole opcode (.method name true)) (hbody : inner depth body stmts) :
      Lowered settings inner depth ⟨.op opcode, args, body, orElse⟩
        (settings.awaitMethod name (Arg.toExprs settings args ++ [settings.callback stmts]))
  | print {args : List Arg} {body orElse : Option Flow}
      (hrole : settings.HasRole "print" .print) :
      Lowered settings inner depth ⟨.op "print", args, body, orElse⟩
        (settings.printCall (Arg.toExprs settings args))

/-- A step stays a step if more is known of the inner flows of its block. -/
theorem Lowered.mono {settings : Settings} {depth : Depth} {block : Block} {stmt : Stmt}
    {inner inner' : Depth → Option Flow → List Stmt → Prop}
    (hbody : ∀ depth stmts, inner depth block.body stmts → inner' depth block.body stmts)
    (helse : ∀ depth stmts, inner depth block.orElse stmts → inner' depth block.orElse stmts)
    (h : Lowered settings inner depth block stmt) : Lowered settings inner' depth block stmt := by
  cases h with
  | store => exact .store
  | perform => exact .perform
  | ifThen h => exact .ifThen (hbody _ _ h)
  | ifThenElse h h' => exact .ifThenElse (hbody _ _ h) (helse _ _ h')
  | repeatTimes h => exact .repeatTimes (hbody _ _ h)
  | whileTest h => exact .whileTest (hbody _ _ h)
  | forever h => exact .forever (hbody _ _ h)
  | untilTest h => exact .untilTest (hbody _ _ h)
  | leave => exact .leave
  | switch h => exact .switch (hbody _ _ h)
  | case h => exact .case (hbody _ _ h)
  | defaultCase h => exact .defaultCase (hbody _ _ h)
  | increment htarget => exact .increment htarget
  | incrementOne htarget => exact .incrementOne htarget
  | decrementOne htarget => exact .decrementOne htarget
  | setter hrole => exact .setter hrole
  | method hrole => exact .method hrole
  | clamp hrole h => exact .clamp hrole (hbody _ _ h)
  | print hrole => exact .print hrole

/-! ## Section 3: Lowering takes such steps -/

/-- A computation that goes on and succeeds has succeeded before. -/
theorem exists_of_bind_eq_ok {ε α β : Type} {r : Except ε α} {f : α → Except ε β} {b : β}
    (h : (r >>= f) = .ok b) : ∃ a, r = .ok a ∧ f a = .ok b := by
  cases r with
  | error e => cases h
  | ok a => exact ⟨a, rfl, h⟩

/-- A computation that only makes something of a result. -/
theorem exists_of_bind_return_eq_ok {ε α β : Type} {r : Except ε α} {f : α → β} {b : β}
    (h : (do let a ← r; return f a) = .ok b) : ∃ a, r = .ok a ∧ f a = b := by
  obtain ⟨a, hr, hf⟩ := exists_of_bind_eq_ok h
  exact ⟨a, hr, Except.ok.inj hf⟩

/-- What a block becomes is on the list. -/
theorem Block.lowered_of_toStmt {settings : Settings} {depth : Depth} {block : Block}
    {stmt : Stmt} (h : block.toStmt settings depth = .ok stmt) :
    Lowered settings (fun depth flow stmts => Flow.innerToStmts settings depth flow = .ok stmts)
      depth block stmt := by
  obtain ⟨head, args, body, orElse⟩ := block
  cases head with
  | store name =>
    rw [Block.toStmt] at h
    cases h
    exact .store
  | perform name =>
    rw [Block.toStmt] at h
    cases h
    exact .perform
  | op opcode =>
    -- From here on the role counts, and the opcode only where its step keeps it.
    rw [Block.toStmt] at h
    have hrole := settings.role_hasRole opcode
    generalize settings.role opcode = role at h hrole
    cases role with
    | construct c =>
      cases hrole
      cases c with
      | ifThen =>
        obtain ⟨stmts, hbody, rfl⟩ := exists_of_bind_return_eq_ok h
        exact .ifThen hbody
      | ifThenElse =>
        obtain ⟨stmts, hbody, h⟩ := exists_of_bind_eq_ok h
        obtain ⟨others, helse, rfl⟩ := exists_of_bind_return_eq_ok h
        exact .ifThenElse hbody helse
      | repeatTimes =>
        obtain ⟨stmts, hbody, rfl⟩ := exists_of_bind_return_eq_ok h
        exact .repeatTimes hbody
      | whileTest =>
        obtain ⟨stmts, hbody, rfl⟩ := exists_of_bind_return_eq_ok h
        exact .whileTest hbody
      | forever =>
        obtain ⟨stmts, hbody, rfl⟩ := exists_of_bind_return_eq_ok h
        exact .forever hbody
      | untilTest =>
        obtain ⟨stmts, hbody, rfl⟩ := exists_of_bind_return_eq_ok h
        exact .untilTest hbody
      | leave =>
        cases h
        exact .leave
      | switch =>
        obtain ⟨stmts, hbody, rfl⟩ := exists_of_bind_return_eq_ok h
        exact .switch hbody
      | case =>
        obtain ⟨stmts, hbody, rfl⟩ := exists_of_bind_return_eq_ok h
        exact .case hbody
      | defaultCase =>
        obtain ⟨stmts, hbody, rfl⟩ := exists_of_bind_return_eq_ok h
        exact .defaultCase hbody
      | increment =>
        obtain ⟨htarget, rfl⟩ := Settings.changeBy_eq_ok h
        exact .increment htarget
      | incrementOne =>
        obtain ⟨htarget, rfl⟩ := Settings.changeBy_eq_ok h
        exact .incrementOne htarget
      | decrementOne =>
        obtain ⟨htarget, rfl⟩ := Settings.changeBy_eq_ok h
        exact .decrementOne htarget
    | setter property =>
      cases h
      exact .setter hrole
    | method name clamp =>
      cases clamp with
      | false =>
        cases h
        exact .method hrole
      | true =>
        obtain ⟨stmts, hbody, rfl⟩ := exists_of_bind_return_eq_ok h
        exact .clamp hrole hbody
    | print =>
      cases h
      cases hrole with
      | print hsetter hmethod => exact .print (.print hsetter hmethod)
    | unknown => cases h

/-! ## Section 4: Induction over compiled flows -/

/-- **Premises of the induction**: each step of lowering keeps up `onBlock`,
    given `onFlow` for the inner flows, and statements in a row keep up
    `onFlow`. -/
structure LoweringKeeps (settings : Settings) (onBlock : Depth → Block → Stmt → Prop)
    (onFlow : Depth → Flow → List Stmt → Prop) : Prop where
  /-- A block, from its inner flows. -/
  block : ∀ {depth : Depth} {block : Block} {stmt : Stmt},
    Lowered settings (InnerFlow onFlow) depth block stmt → onBlock depth block stmt
  /-- The empty flow. -/
  nil : ∀ {depth : Depth}, onFlow depth [] []
  /-- A flow, from its first block and the others. -/
  cons : ∀ {depth : Depth} {block : Block} {blocks : Flow} {stmt : Stmt} {stmts : List Stmt},
    onBlock depth block stmt → onFlow depth blocks stmts →
      onFlow depth (block :: blocks) (stmt :: stmts)

section induction

variable {settings : Settings} {onBlock : Depth → Block → Stmt → Prop}
  {onFlow : Depth → Flow → List Stmt → Prop}

mutual

theorem Block.toStmt_induction (hkeeps : LoweringKeeps settings onBlock onFlow) :
    ∀ (block : Block) {depth : Depth} {stmt : Stmt},
    block.toStmt settings depth = .ok stmt → onBlock depth block stmt
  | ⟨_, _, body, orElse⟩, _, _, h => by
    -- The step is about the inner flows as they were compiled; the induction
    -- says the same of them as what is to be kept up.
    refine hkeeps.block ((Block.lowered_of_toStmt h).mono ?_ ?_)
    · intro depth stmts hbody
      exact Flow.innerToStmts_induction hkeeps body hbody
    · intro depth stmts helse
      exact Flow.innerToStmts_induction hkeeps orElse helse

theorem Flow.innerToStmts_induction (hkeeps : LoweringKeeps settings onBlock onFlow) :
    ∀ (flow : Option (List Block)) {depth : Depth} {stmts : List Stmt},
    Flow.innerToStmts settings depth flow = .ok stmts → InnerFlow onFlow depth flow stmts
  | none, _, _, h => (Except.ok.inj h).symm
  | some flow, _, _, h => Flow.toStmts_induction hkeeps flow h

/-- **Induction over compiled flows**: what every step of lowering keeps up
    holds of every flow that compiles. -/
theorem Flow.toStmts_induction (hkeeps : LoweringKeeps settings onBlock onFlow) :
    ∀ (flow : List Block) {depth : Depth} {stmts : List Stmt},
    Flow.toStmts settings depth flow = .ok stmts → onFlow depth flow stmts
  | [], _, _, h => by
    cases h
    exact hkeeps.nil
  | block :: blocks, _, _, h => by
    rw [Flow.toStmts] at h
    obtain ⟨first, hfirst, h⟩ := exists_of_bind_eq_ok h
    obtain ⟨rest, hrest, rfl⟩ := exists_of_bind_return_eq_ok h
    exact hkeeps.cons (Block.toStmt_induction hkeeps block hfirst)
      (Flow.toStmts_induction hkeeps blocks hrest)

end

end induction

end BlockFlow
