import BlockFlow.Program.Basic

/-! # Trails through program trees

    A node of a program tree is found by going down from the root, from part
    to part. A `Trail` records the way: which slots were entered, and which
    nodes were found there. So it says of a node where it occurs, and what it
    is enclosed by.

    - `Part` lists the parts of every kind of node, each with its slot.
    - `IsTrail` builds trails by such steps.
    - `IsTrail.invariant`: what holds of the first step, and is kept by every
      further one, holds of all trails.

    Going down a tree is read as a run of a system here: the trails are its
    reachable states, and statements about all nodes of a tree are invariants. -/

namespace BlockFlow

/-! ## Section 1: Nodes and their parts -/

/-- A node of a program tree. -/
inductive Node where
  /-- A whole program. -/
  | program (p : Program)
  /-- A statement. -/
  | stmt (s : Stmt)
  /-- An expression. -/
  | expr (e : Expr)

/-- Where a part stands in its node. -/
inductive Slot where
  /-- The statement at a position of the row inside a node. -/
  | body (i : Nat)
  /-- The statement at a position of the alternative. -/
  | orElse (i : Nat)
  /-- The statement that starts a counted loop. -/
  | init
  /-- The statement that ends a round of a counted loop. -/
  | update
  /-- The test of a conditional, a loop or a case. -/
  | test
  /-- The subject of a selection. -/
  | subject
  /-- The target of an assignment. -/
  | target
  /-- The expression that a statement binds, assigns, evaluates or returns. -/
  | value
  /-- The first operand of two. -/
  | left
  /-- The second operand of two. -/
  | right
  /-- The only operand. -/
  | operand
  /-- What is called. -/
  | callee
  /-- The argument of a call at a position. -/
  | arg (i : Nat)
  /-- The object that has a property. -/
  | object
deriving DecidableEq, Repr

/-- **One step down**: a node, a slot of it, and the part that stands there. -/
inductive Part : Node → Slot → Node → Prop where
  | program {p : Program} {i : Nat} {s : Stmt} (h : p.body[i]? = some s) :
      Part (.program p) (.body i) (.stmt s)
  | condTest {test : Expr} {body : List Stmt} {orElse : Option (List Stmt)} :
      Part (.stmt (.cond test body orElse)) .test (.expr test)
  | condBody {test : Expr} {body : List Stmt} {orElse : Option (List Stmt)} {i : Nat} {s : Stmt}
      (h : body[i]? = some s) : Part (.stmt (.cond test body orElse)) (.body i) (.stmt s)
  | condElse {test : Expr} {body others : List Stmt} {i : Nat} {s : Stmt}
      (h : others[i]? = some s) : Part (.stmt (.cond test body (some others))) (.orElse i) (.stmt s)
  | forInit {init update : Stmt} {test : Expr} {body : List Stmt} :
      Part (.stmt (.forLoop init test update body)) .init (.stmt init)
  | forTest {init update : Stmt} {test : Expr} {body : List Stmt} :
      Part (.stmt (.forLoop init test update body)) .test (.expr test)
  | forUpdate {init update : Stmt} {test : Expr} {body : List Stmt} :
      Part (.stmt (.forLoop init test update body)) .update (.stmt update)
  | forBody {init update : Stmt} {test : Expr} {body : List Stmt} {i : Nat} {s : Stmt}
      (h : body[i]? = some s) :
      Part (.stmt (.forLoop init test update body)) (.body i) (.stmt s)
  | whileTest {test : Expr} {body : List Stmt} :
      Part (.stmt (.whileLoop test body)) .test (.expr test)
  | whileBody {test : Expr} {body : List Stmt} {i : Nat} {s : Stmt} (h : body[i]? = some s) :
      Part (.stmt (.whileLoop test body)) (.body i) (.stmt s)
  | doBody {test : Expr} {body : List Stmt} {i : Nat} {s : Stmt} (h : body[i]? = some s) :
      Part (.stmt (.doWhile body test)) (.body i) (.stmt s)
  | doTest {test : Expr} {body : List Stmt} :
      Part (.stmt (.doWhile body test)) .test (.expr test)
  | switchSubject {subject : Expr} {cases : List Stmt} :
      Part (.stmt (.switch subject cases)) .subject (.expr subject)
  | switchCase {subject : Expr} {cases : List Stmt} {i : Nat} {s : Stmt}
      (h : cases[i]? = some s) : Part (.stmt (.switch subject cases)) (.body i) (.stmt s)
  | caseTest {test : Expr} {body : List Stmt} :
      Part (.stmt (.case (some test) body)) .test (.expr test)
  | caseBody {test : Option Expr} {body : List Stmt} {i : Nat} {s : Stmt}
      (h : body[i]? = some s) : Part (.stmt (.case test body)) (.body i) (.stmt s)
  | bindValue {name : String} {init : Expr} : Part (.stmt (.bind name init)) .value (.expr init)
  | assignTarget {target value : Expr} :
      Part (.stmt (.assign target value)) .target (.expr target)
  | assignValue {target value : Expr} : Part (.stmt (.assign target value)) .value (.expr value)
  | exprValue {e : Expr} : Part (.stmt (.expr e)) .value (.expr e)
  | retValue {e : Expr} : Part (.stmt (.ret e)) .value (.expr e)
  | binaryLeft {op : BinaryOp} {left right : Expr} :
      Part (.expr (.binary op left right)) .left (.expr left)
  | binaryRight {op : BinaryOp} {left right : Expr} :
      Part (.expr (.binary op left right)) .right (.expr right)
  | unaryOperand {op : UnaryOp} {arg : Expr} : Part (.expr (.unary op arg)) .operand (.expr arg)
  | callCallee {callee : Expr} {args : List Expr} {mode : CallMode} :
      Part (.expr (.call callee args mode)) .callee (.expr callee)
  | callArg {callee : Expr} {args : List Expr} {mode : CallMode} {i : Nat} {e : Expr}
      (h : args[i]? = some e) : Part (.expr (.call callee args mode)) (.arg i) (.expr e)
  | memberObject {object : Expr} {property : String} :
      Part (.expr (.member object property)) .object (.expr object)
  | closureBody {params : List String} {body : List Stmt} {isAsync : Bool} {i : Nat} {s : Stmt}
      (h : body[i]? = some s) :
      Part (.expr (.closure params body isAsync)) (.body i) (.stmt s)

/-! ## Section 2: Trails -/

/-- A way down a tree, the last step first. A step has the slot that was
    entered and the node that was found there. -/
abbrev Trail := List (Slot × Node)

/-- Where a trail from a root ends. -/
def Trail.foot (root : Node) : Trail → Node
  | [] => root
  | (_, node) :: _ => node

/-- **Trails in a tree**: every step goes from the foot of the steps before
    it to one of its parts. -/
inductive IsTrail (root : Node) : Trail → Prop where
  | nil : IsTrail root []
  | cons {slot : Slot} {node : Node} {above : Trail} (habove : IsTrail root above)
      (hpart : Part (above.foot root) slot node) : IsTrail root ((slot, node) :: above)

/-- **Invariants of trails**: what holds of the first step, and is kept by
    every further step, holds at the end of every trail. -/
theorem IsTrail.invariant {root : Node} {holds : Trail → Prop}
    (hfirst : ∀ {slot : Slot} {node : Node}, Part root slot node → holds [(slot, node)])
    (hstep : ∀ {slot slot' : Slot} {node node' : Node} {above : Trail},
      holds ((slot, node) :: above) → Part node slot' node' →
        holds ((slot', node') :: (slot, node) :: above))
    {t : Trail} (h : IsTrail root t) (hne : t ≠ []) : holds t := by
  induction h with
  | nil => exact absurd rfl hne
  | @cons slot node above habove hpart ih =>
    cases above with
    | nil => exact hfirst hpart
    | cons last above => exact hstep (ih (List.cons_ne_nil _ _)) hpart

/-- A place in a row with one more member at its end is a place before it, or
    the end. -/
theorem getElem?_eq_or_last {α : Type} {items : List α} {last item : α} {i : Nat}
    (h : (items ++ [last])[i]? = some item) :
    items[i]? = some item ∨ i = items.length ∧ item = last := by
  rcases Nat.lt_or_ge i items.length with hi | hi
  · rw [List.getElem?_append_left hi] at h
    exact Or.inl h
  · rw [List.getElem?_append_right hi, List.getElem?_singleton] at h
    split at h
    · exact Or.inr ⟨by omega, (Option.some.inj h).symm⟩
    · cases h

/-! ## Section 3: Counted loops on a trail -/

/-- The name that a counted loop declares in its header. -/
def Stmt.counter? : Stmt → Option String
  | .forLoop (.bind name _) _ _ _ => some name
  | _ => none

namespace Node

/-- Whether a node is a loop with a header. -/
def isLoop : Node → Bool
  | .stmt (.forLoop _ _ _ _) => true
  | _ => false

/-- The counter of a node, if it is a counted loop. -/
def counter? : Node → Option String
  | .stmt s => s.counter?
  | _ => none

end Node

namespace Trail

/-- How many loops with a header a trail passes. -/
def loops (t : Trail) : Nat := t.countP fun step => step.2.isLoop

theorem loops_cons (slot : Slot) (node : Node) (above : Trail) :
    loops ((slot, node) :: above) = loops above + if node.isLoop then 1 else 0 :=
  List.countP_cons

end Trail

end BlockFlow
