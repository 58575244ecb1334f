import BlockFlow.Lowering.Statement

/-! # Depth and stem only name the counters

    Two runs of the compiler on the same flow, at different depths and with
    different stems for the names of counters, do the same. Only the counters
    have other names, and counters stand in the headers of their loops.

    - `Stmt.withoutCounters` takes the name of the counter out of the four
      places of every header where it stands, and leaves all else alone.
    - `SameOutcome` relates two computations: both fail with the same error,
      or both succeed with results that are alike.
    - **Main statement** (`Flow.toStmts_withoutCounters`): two such runs have
      the same outcome, up to the names of counters.

    The two runs take the same branch everywhere, since roles and operands do
    not depend on depth and stem. So the proof goes through both at once, by
    the recursion that they share. -/

namespace BlockFlow

/-! ## Section 1: Headers without counters -/

/-- A declaration without its name. -/
def Stmt.withoutDeclared : Stmt → Stmt
  | .bind _ init => .bind "" init
  | s => s

/-- An operation without the name that is its first operand. -/
def Expr.withoutLeft : Expr → Expr
  | .binary op (.ident _) right => .binary op (.ident "") right
  | e => e

/-- An assignment without the name it goes to, and without the name that is
    the first operand of its value. -/
def Stmt.withoutUpdated : Stmt → Stmt
  | .assign (.ident _) value => .assign (.ident "") value.withoutLeft
  | s => s

mutual

/-- An expression without the names of the counters in its closures. -/
def Expr.withoutCounters : Expr → Expr
  | .literal v => .literal v
  | .ident name => .ident name
  | .binary op left right => .binary op left.withoutCounters right.withoutCounters
  | .unary op arg => .unary op arg.withoutCounters
  | .call callee args mode => .call callee.withoutCounters (Expr.listWithoutCounters args) mode
  | .member object property => .member object.withoutCounters property
  | .closure params body isAsync => .closure params (Stmt.listWithoutCounters body) isAsync

/-- Expressions without the names of counters. -/
def Expr.listWithoutCounters : List Expr → List Expr
  | [] => []
  | e :: es => e.withoutCounters :: Expr.listWithoutCounters es

/-- A statement without the names of counters. Only headers of loops have
    them. -/
def Stmt.withoutCounters : Stmt → Stmt
  | .cond test body none => .cond test.withoutCounters (Stmt.listWithoutCounters body) none
  | .cond test body (some orElse) =>
    .cond test.withoutCounters (Stmt.listWithoutCounters body)
      (some (Stmt.listWithoutCounters orElse))
  | .forLoop init test update body =>
    .forLoop init.withoutCounters.withoutDeclared test.withoutCounters.withoutLeft
      update.withoutCounters.withoutUpdated (Stmt.listWithoutCounters body)
  | .whileLoop test body => .whileLoop test.withoutCounters (Stmt.listWithoutCounters body)
  | .doWhile body test => .doWhile (Stmt.listWithoutCounters body) test.withoutCounters
  | .switch subject cases => .switch subject.withoutCounters (Stmt.listWithoutCounters cases)
  | .case none body => .case none (Stmt.listWithoutCounters body)
  | .case (some test) body =>
    .case (some test.withoutCounters) (Stmt.listWithoutCounters body)
  | .brk => .brk
  | .bind name init => .bind name init.withoutCounters
  | .assign target value => .assign target.withoutCounters value.withoutCounters
  | .expr e => .expr e.withoutCounters
  | .ret e => .ret e.withoutCounters

/-- Statements without the names of counters. -/
def Stmt.listWithoutCounters : List Stmt → List Stmt
  | [] => []
  | s :: ss => s.withoutCounters :: Stmt.listWithoutCounters ss

end

theorem Expr.listWithoutCounters_append (es es' : List Expr) :
    Expr.listWithoutCounters (es ++ es') =
      Expr.listWithoutCounters es ++ Expr.listWithoutCounters es' := by
  induction es with
  | nil => rfl
  | cons e es ih => rw [List.cons_append, listWithoutCounters, listWithoutCounters, ih]; rfl

theorem Stmt.listWithoutCounters_append (ss ss' : List Stmt) :
    Stmt.listWithoutCounters (ss ++ ss') =
      Stmt.listWithoutCounters ss ++ Stmt.listWithoutCounters ss' := by
  induction ss with
  | nil => rfl
  | cons s ss ih => rw [List.cons_append, listWithoutCounters, listWithoutCounters, ih]; rfl

/-- Without its counter, a loop has nothing of its depth. -/
theorem Settings.withoutCounters_countedLoop (settings : Settings) (depth : Depth) (bound : Expr)
    (body : List Stmt) :
    (settings.countedLoop depth bound body).withoutCounters =
      .forLoop (.bind "" (.literal (.integer 0)))
        (.binary .lt (.ident "") bound.withoutCounters)
        (.assign (.ident "") (.binary .add (.ident "") (.literal (.integer 1))))
        (Stmt.listWithoutCounters body) := by
  unfold Settings.countedLoop
  simp only [Stmt.withoutCounters, Expr.withoutCounters, Stmt.withoutDeclared, Expr.withoutLeft,
    Stmt.withoutUpdated]

-- The bound and the body keep their names, be they those of the counter.
example : (Settings.countedLoop {} 0 (.ident "i0") [.expr (.ident "i0")]).withoutCounters =
    .forLoop (.bind "" (.literal (.integer 0))) (.binary .lt (.ident "") (.ident "i0"))
      (.assign (.ident "") (.binary .add (.ident "") (.literal (.integer 1))))
      [.expr (.ident "i0")] := rfl

/-! ## Section 2: Two computations -/

/-- **The same outcome**: the same error, or results that are alike. -/
inductive SameOutcome {ε α : Type} (alike : α → α → Prop) : Except ε α → Except ε α → Prop where
  | error (e : ε) : SameOutcome alike (.error e) (.error e)
  | ok {a a' : α} (h : alike a a') : SameOutcome alike (.ok a) (.ok a')

namespace SameOutcome

variable {ε α β : Type} {alike : α → α → Prop} {alike' : β → β → Prop} {r r' : Except ε α}

theorem bind {f f' : α → Except ε β} (h : SameOutcome alike r r')
    (hf : ∀ a a', alike a a' → SameOutcome alike' (f a) (f' a')) :
    SameOutcome alike' (r >>= f) (r' >>= f') := by
  cases h with
  | error e => exact .error e
  | ok h => exact hf _ _ h

theorem bind_return {f f' : α → β} (h : SameOutcome alike r r')
    (hf : ∀ a a', alike a a' → alike' (f a) (f' a')) :
    SameOutcome alike' (do let a ← r; return f a) (do let a ← r'; return f' a) :=
  h.bind fun a a' ha => .ok (hf a a' ha)

theorem refl (h : ∀ a, alike a a) (r : Except ε α) : SameOutcome alike r r := by
  cases r with
  | error e => exact .error e
  | ok a => exact .ok (h a)

end SameOutcome

/-- Statements that differ in the names of counters only. -/
def Stmt.Alike (s s' : Stmt) : Prop := s.withoutCounters = s'.withoutCounters

theorem Stmt.Alike.refl (s : Stmt) : Stmt.Alike s s := rfl

/-- Rows of statements that differ in the names of counters only. -/
def Stmt.ListAlike (ss ss' : List Stmt) : Prop :=
  Stmt.listWithoutCounters ss = Stmt.listWithoutCounters ss'

/-! ## Section 3: Two runs -/

/-- The settings with another stem for the names of counters. -/
def Settings.withStem (settings : Settings) (stem : String) : Settings :=
  { settings with conventions := { settings.conventions with counterStem := stem } }

section runs

variable (settings : Settings) (stem : String)

theorem Settings.role_withStem (opcode : String) :
    (settings.withStem stem).role opcode = settings.role opcode := rfl

mutual

/-- No argument asks for the stem. -/
theorem Arg.toExpr_withStem : ∀ (arg : Arg),
    arg.toExpr (settings.withStem stem) = arg.toExpr settings
  | .null | .literal _ | .box _ => rfl
  | .apply opcode args => by
    rw [Arg.toExpr, Arg.toExpr, Arg.toExprs_withStem args]
    rfl

theorem Arg.toExprs_withStem : ∀ (args : List Arg),
    Arg.toExprs (settings.withStem stem) args = Arg.toExprs settings args
  | [] => rfl
  | arg :: args => by
    rw [Arg.toExprs, Arg.toExprs, Arg.toExpr_withStem arg, Arg.toExprs_withStem args]

end

/-- Callbacks that hold the same statements are the same without counters. -/
theorem Settings.withoutCounters_callback {stmts stmts' : List Stmt}
    (h : Stmt.ListAlike stmts stmts') :
    ((settings.withStem stem).callback stmts).withoutCounters =
      (settings.callback stmts').withoutCounters := by
  unfold Settings.callback
  rw [Expr.withoutCounters, Expr.withoutCounters, Stmt.listWithoutCounters_append,
    Stmt.listWithoutCounters_append, h]
  rfl

theorem Settings.alike_awaitMethod (name : String) {args : List Expr} {last last' : Expr}
    (h : last.withoutCounters = last'.withoutCounters) :
    Stmt.Alike ((settings.withStem stem).awaitMethod name (args ++ [last]))
      (settings.awaitMethod name (args ++ [last'])) := by
  unfold Settings.awaitMethod
  rw [Stmt.Alike, Stmt.withoutCounters, Stmt.withoutCounters, Expr.withoutCounters,
    Expr.withoutCounters, Expr.listWithoutCounters_append, Expr.listWithoutCounters_append,
    Expr.listWithoutCounters, Expr.listWithoutCounters, h]
  rfl

theorem Settings.operand_withStem (args : List Arg) (n : Nat) :
    (settings.withStem stem).operand args n = settings.operand args n := by
  unfold Settings.operand
  rw [Arg.toExprs_withStem]

mutual

theorem Block.toStmt_sameOutcome : ∀ (block : Block) (depth depth' : Depth),
    SameOutcome Stmt.Alike (block.toStmt (settings.withStem stem) depth)
      (block.toStmt settings depth')
  | ⟨head, args, body, orElse⟩, depth, depth' => by
    have hbody := fun depth depth' => Flow.innerToStmts_sameOutcome body depth depth'
    have helse := Flow.innerToStmts_sameOutcome orElse depth depth'
    have hargs := Arg.toExprs_withStem settings stem args
    have hoperand := Settings.operand_withStem settings stem args
    cases head with
    | store name =>
      rw [Block.toStmt, Block.toStmt, hoperand]
      exact .ok rfl
    | perform name => exact .ok rfl
    | op opcode =>
      rw [Block.toStmt, Block.toStmt, Settings.role_withStem]
      simp only [hargs, hoperand]
      cases settings.role opcode with
      | construct c =>
        cases c with
        | ifThen | whileTest | forever | untilTest | switch | defaultCase =>
          refine (hbody depth depth').bind_return fun stmts stmts' h => ?_
          rw [Stmt.Alike, Stmt.withoutCounters, Stmt.withoutCounters, h]
        | ifThenElse =>
          refine (hbody depth depth').bind fun stmts stmts' h => ?_
          refine helse.bind_return fun others others' h' => ?_
          rw [Stmt.Alike, Stmt.withoutCounters, Stmt.withoutCounters, h, h']
        | repeatTimes =>
          -- The inner flow lies one loop deeper in both runs.
          refine (hbody (depth + 1) (depth' + 1)).bind_return fun stmts stmts' h => ?_
          rw [Stmt.Alike, Settings.withoutCounters_countedLoop,
            Settings.withoutCounters_countedLoop, h]
        | case =>
          refine (hbody depth depth').bind_return fun stmts stmts' h => ?_
          rw [Stmt.Alike, Stmt.withoutCounters, Stmt.withoutCounters,
            Stmt.listWithoutCounters_append, Stmt.listWithoutCounters_append, h]
        | leave => exact .ok rfl
        | increment | incrementOne | decrementOne => exact .refl Stmt.Alike.refl _
      | setter property =>
        unfold Settings.assignProperty
        rw [hoperand]
        exact .ok rfl
      | method name clamp =>
        cases clamp with
        | false => exact .ok rfl
        | true =>
          refine (hbody depth depth').bind_return fun stmts stmts' h => ?_
          exact Settings.alike_awaitMethod settings stem name
            (Settings.withoutCounters_callback settings stem h)
      | print => exact .ok rfl
      | unknown => exact .error _

theorem Flow.innerToStmts_sameOutcome : ∀ (flow : Option (List Block)) (depth depth' : Depth),
    SameOutcome Stmt.ListAlike (Flow.innerToStmts (settings.withStem stem) depth flow)
      (Flow.innerToStmts settings depth' flow)
  | none, _, _ => .ok rfl
  | some flow, depth, depth' => Flow.toStmts_sameOutcome flow depth depth'

/-- Both runs of a flow have the same outcome. -/
theorem Flow.toStmts_sameOutcome : ∀ (flow : List Block) (depth depth' : Depth),
    SameOutcome Stmt.ListAlike (Flow.toStmts (settings.withStem stem) depth flow)
      (Flow.toStmts settings depth' flow)
  | [], _, _ => .ok rfl
  | block :: blocks, depth, depth' => by
    rw [Flow.toStmts, Flow.toStmts]
    refine (Block.toStmt_sameOutcome block depth depth').bind fun first first' hfirst => ?_
    refine (Flow.toStmts_sameOutcome blocks depth depth').bind_return fun rest rest' hrest => ?_
    show first.withoutCounters :: Stmt.listWithoutCounters rest = _
    rw [hfirst, hrest]
    rfl

end

end runs

/-- **Depth and stem only name the counters.** Whatever the depths, and whatever
    the names of counters begin with, a flow gives the same error twice, or it
    compiles twice, and the two rows of statements are equal once the names of
    the counters are taken out of the headers of their loops. -/
theorem Flow.toStmts_withoutCounters (settings : Settings) (flow : Flow) (stem stem' : String)
    (depth depth' : Depth) :
    (∃ error, Flow.toStmts (settings.withStem stem) depth flow = .error error ∧
      Flow.toStmts (settings.withStem stem') depth' flow = .error error) ∨
    ∃ stmts stmts', Flow.toStmts (settings.withStem stem) depth flow = .ok stmts ∧
      Flow.toStmts (settings.withStem stem') depth' flow = .ok stmts' ∧
      Stmt.listWithoutCounters stmts = Stmt.listWithoutCounters stmts' := by
  have hruns := Flow.toStmts_sameOutcome (settings.withStem stem') stem flow depth depth'
  have hstem : (settings.withStem stem').withStem stem = settings.withStem stem := rfl
  rw [hstem] at hruns
  generalize Flow.toStmts (settings.withStem stem) depth flow = r at hruns
  generalize Flow.toStmts (settings.withStem stem') depth' flow = r' at hruns
  cases hruns with
  | error e => exact Or.inl ⟨e, rfl, rfl⟩
  | ok h => exact Or.inr ⟨_, _, rfl, rfl, h⟩

end BlockFlow
