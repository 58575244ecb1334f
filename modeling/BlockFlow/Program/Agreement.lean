import BlockFlow.Program.Basic

/-! # Agreement of programs

  Equality of trees, with doubles compared as numbers: the two zeros agree,
  and a tree with a NaN in it does not even agree with itself.
-/

namespace BlockFlow

mutual

/-- Agreement of expressions. -/
def Expr.agrees : Expr → Expr → Bool
  | .literal v, .literal w => v.agrees w
  | .ident a, .ident b => a == b
  | .binary op l r, .binary op' l' r' => op == op' && l.agrees l' && r.agrees r'
  | .unary op e, .unary op' e' => op == op' && e.agrees e'
  | .call f as m, .call f' as' m' => f.agrees f' && Expr.listAgrees as as' && m == m'
  | .member e p, .member e' p' => e.agrees e' && p == p'
  | .closure ps b a, .closure ps' b' a' => ps == ps' && Stmt.listAgrees b b' && a == a'
  | _, _ => false

/-- Agreement of rows of expressions. -/
def Expr.listAgrees : List Expr → List Expr → Bool
  | [], [] => true
  | e :: es, e' :: es' => e.agrees e' && Expr.listAgrees es es'
  | _, _ => false

/-- Agreement of expressions that may be missing. -/
def Expr.optionAgrees : Option Expr → Option Expr → Bool
  | none, none => true
  | some e, some e' => e.agrees e'
  | _, _ => false

/-- Agreement of statements. -/
def Stmt.agrees : Stmt → Stmt → Bool
  | .cond t b o, .cond t' b' o' =>
    t.agrees t' && Stmt.listAgrees b b' && Stmt.optionAgrees o o'
  | .forLoop i t u b, .forLoop i' t' u' b' =>
    i.agrees i' && t.agrees t' && u.agrees u' && Stmt.listAgrees b b'
  | .whileLoop t b, .whileLoop t' b' => t.agrees t' && Stmt.listAgrees b b'
  | .doWhile b t, .doWhile b' t' => Stmt.listAgrees b b' && t.agrees t'
  | .switch e cs, .switch e' cs' => e.agrees e' && Stmt.listAgrees cs cs'
  | .case t b, .case t' b' => Expr.optionAgrees t t' && Stmt.listAgrees b b'
  | .brk, .brk => true
  | .bind n e, .bind n' e' => n == n' && e.agrees e'
  | .assign t v, .assign t' v' => t.agrees t' && v.agrees v'
  | .expr e, .expr e' => e.agrees e'
  | .ret e, .ret e' => e.agrees e'
  | _, _ => false

/-- Agreement of rows of statements. -/
def Stmt.listAgrees : List Stmt → List Stmt → Bool
  | [], [] => true
  | s :: ss, s' :: ss' => s.agrees s' && Stmt.listAgrees ss ss'
  | _, _ => false

/-- Agreement of rows of statements that may be missing. -/
def Stmt.optionAgrees : Option (List Stmt) → Option (List Stmt) → Bool
  | none, none => true
  | some ss, some ss' => Stmt.listAgrees ss ss'
  | _, _ => false

end

/-- Agreement of programs. -/
def Program.agrees (p q : Program) : Bool := Stmt.listAgrees p.body q.body

end BlockFlow
