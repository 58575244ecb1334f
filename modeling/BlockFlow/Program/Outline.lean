import BlockFlow.Program.Render

/-! # Outlines

  A program as indented lines, two spaces for each level. A statement takes a
  line, and its inner statements follow one level deeper. The closures in a
  declaration, an assignment or an expression follow their line, each with a
  line of its own and its statements one level below that.
-/

namespace BlockFlow

/-- A line of an outline. -/
def outlineLine (level : Nat) (text : String) : String :=
  String.ofList (List.replicate (2 * level) ' ') ++ text

/-- A statement on one line; those with inner statements are only named. -/
def Stmt.inline : Stmt → String
  | .bind name init => "let " ++ name ++ " = " ++ init.render
  | .assign target value => target.render ++ " = " ++ value.render
  | .expr e => e.render
  | .ret e => "return " ++ e.render
  | .brk => "break"
  | .cond _ _ _ => "if ..."
  | .forLoop _ _ _ _ => "for ..."
  | .whileLoop _ _ => "while ..."
  | .doWhile _ _ => "do ..."
  | .switch _ _ => "switch ..."
  | .case _ _ => "case ..."

/-- The line that announces a case. -/
def caseLabel : Option Expr → String
  | some test => "case " ++ test.render
  | none => "default"

mutual

/-- The lines of a statement at a level. -/
def Stmt.lines (level : Nat) : Stmt → List String
  | .cond test body none =>
    outlineLine level ("if " ++ test.render) :: Stmt.listLines (level + 1) body
  | .cond test body (some orElse) =>
    outlineLine level ("if " ++ test.render) :: Stmt.listLines (level + 1) body ++
      outlineLine level "else" :: Stmt.listLines (level + 1) orElse
  | .forLoop init test update body =>
    outlineLine level
        ("for " ++ init.inline ++ "; " ++ test.render ++ "; " ++ update.inline) ::
      Stmt.listLines (level + 1) body
  | .whileLoop test body =>
    outlineLine level ("while " ++ test.render) :: Stmt.listLines (level + 1) body
  | .doWhile body test =>
    outlineLine level "do" :: Stmt.listLines (level + 1) body ++
      [outlineLine level ("while " ++ test.render)]
  | .switch subject cases =>
    outlineLine level ("switch " ++ subject.render) :: Stmt.listLines (level + 1) cases
  | .case test body => outlineLine level (caseLabel test) :: Stmt.listLines (level + 1) body
  | .bind name init =>
    outlineLine level (Stmt.bind name init).inline :: init.closureLines (level + 1)
  | .assign target value =>
    outlineLine level (Stmt.assign target value).inline :: value.closureLines (level + 1)
  | .expr e => outlineLine level e.render :: e.closureLines (level + 1)
  | .brk => [outlineLine level Stmt.brk.inline]
  | .ret e => [outlineLine level (Stmt.ret e).inline]

/-- The lines of statements at a level. -/
def Stmt.listLines (level : Nat) : List Stmt → List String
  | [] => []
  | s :: ss => s.lines level ++ Stmt.listLines level ss

/-- The lines of the closures in an expression, from left to right. -/
def Expr.closureLines (level : Nat) : Expr → List String
  | .closure params body _ =>
    outlineLine level ("closure (" ++ commaSeparated params ++ ")") ::
      Stmt.listLines (level + 1) body
  | .call callee args _ => callee.closureLines level ++ Expr.listClosureLines level args
  | .binary _ left right => left.closureLines level ++ right.closureLines level
  | .unary _ arg => arg.closureLines level
  | .member object _ => object.closureLines level
  | .literal _ | .ident _ => []

/-- The lines of the closures in expressions. -/
def Expr.listClosureLines (level : Nat) : List Expr → List String
  | [] => []
  | e :: es => e.closureLines level ++ Expr.listClosureLines level es

end

/-- The outline of a program. -/
def Program.outline (p : Program) : String :=
  String.ofList ((Stmt.listLines 0 p.body).flatMap fun line => line.toList ++ ['\n'])

end BlockFlow
