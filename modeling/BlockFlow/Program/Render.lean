import BlockFlow.Program.Basic

/-! # Expressions as text

  Expressions are shown on one line. Binary operators are always between
  parentheses. An operand that itself begins with a sign is put between
  parentheses behind a unary operator, so that no two signs stand side by
  side. The body of a closure is left out.
-/

namespace BlockFlow

/-- Texts in a row, with a comma and a blank between them. -/
def commaSeparated (texts : List String) : String := String.intercalate ", " texts

/-- What stands before a call. -/
def CallMode.lead : CallMode → String
  | .plain => ""
  | .suspend => "await "
  | .construct => "new "

namespace Expr

/-- Whether the text of an operand begins with a sign. -/
def leadsWithSign : Expr → Bool
  | .unary _ _ => true
  | .literal (.integer n) => decide (n.toInt < 0)
  | .literal (.float x) => x.negative
  | _ => false

mutual

/-- The text of an expression. -/
def render : Expr → String
  | .literal v => v.render
  | .ident name => name
  | .binary op left right =>
    "(" ++ render left ++ " " ++ op.symbol ++ " " ++ render right ++ ")"
  | .unary op arg =>
    if arg.leadsWithSign then op.symbol ++ "(" ++ render arg ++ ")"
    else op.symbol ++ render arg
  | .call callee args mode =>
    mode.lead ++ render callee ++ "(" ++ commaSeparated (renderList args) ++ ")"
  | .member object property => render object ++ "." ++ property
  | .closure params _ isAsync =>
    (if isAsync then "async " else "") ++ "(" ++ commaSeparated params ++ ") => \x7b...\x7d"

/-- The texts of expressions. -/
def renderList : List Expr → List String
  | [] => []
  | e :: es => render e :: renderList es

end

end Expr

end BlockFlow
