import BlockFlow.Program.Outline
import Mathlib.Data.List.Basic
import Mathlib.Tactic.SplitIfs

/-! # The lines of an outline

    An outline has a line for every statement, one more for an alternative and
    for the test of a loop that tests last, and one for every closure. Two
    things could spoil that count: a line feed inside a line, and a closure
    where the outline does not look for one.

    - `Item` is anything in a program tree, and `Program.items` lists them all,
      each as often as it occurs. The list is built by one plain recursion
      that enters every part of every node.
    - `Stmt.oneLine_of_mem_listLines`: no line has a line feed in it if no name
      has one. Literals are quoted, so it does not matter what they hold.
    - `Stmt.length_listLines`: there are as many lines as the items ask for,
      if no closure is where the outline does not look (`Item.ShowsParts`).
    - `Program.count_outline` and `Program.getLast?_outline` carry this over
      to the text. -/

namespace BlockFlow

/-! ## Section 1: The items of a tree -/

/-- Anything that occurs in a program tree. -/
inductive Item where
  /-- A statement in a row of statements. -/
  | stmt (s : Stmt)
  /-- A statement in the header of a loop with a counter. -/
  | header (s : Stmt)
  /-- An expression. -/
  | expr (e : Expr)

mutual

/-- An expression and everything inside it. -/
def Expr.items : Expr → List Item
  | .literal v => [.expr (.literal v)]
  | .ident name => [.expr (.ident name)]
  | .binary op left right => .expr (.binary op left right) :: (left.items ++ right.items)
  | .unary op arg => .expr (.unary op arg) :: arg.items
  | .call callee args mode =>
    .expr (.call callee args mode) :: (callee.items ++ Expr.rowItems args)
  | .member object property => .expr (.member object property) :: object.items
  | .closure params body isAsync => .expr (.closure params body isAsync) :: Stmt.rowItems body

/-- Expressions in a row and everything inside them. -/
def Expr.rowItems : List Expr → List Item
  | [] => []
  | e :: es => e.items ++ Expr.rowItems es

/-- Everything inside a statement. -/
def Stmt.inside : Stmt → List Item
  | .cond test body none => test.items ++ Stmt.rowItems body
  | .cond test body (some orElse) =>
    test.items ++ Stmt.rowItems body ++ Stmt.rowItems orElse
  | .forLoop init test update body =>
    .header init :: init.inside ++ test.items ++ .header update :: update.inside ++
      Stmt.rowItems body
  | .whileLoop test body => test.items ++ Stmt.rowItems body
  | .doWhile body test => Stmt.rowItems body ++ test.items
  | .switch subject cases => subject.items ++ Stmt.rowItems cases
  | .case none body => Stmt.rowItems body
  | .case (some test) body => test.items ++ Stmt.rowItems body
  | .brk => []
  | .bind _ init => init.items
  | .assign target value => target.items ++ value.items
  | .expr e => e.items
  | .ret e => e.items

/-- Statements in a row and everything inside them. -/
def Stmt.rowItems : List Stmt → List Item
  | [] => []
  | s :: ss => .stmt s :: s.inside ++ Stmt.rowItems ss

end

/-- All items of a program. -/
def Program.items (p : Program) : List Item := Stmt.rowItems p.body

/-- The name that a statement declares. -/
def Stmt.declared : Stmt → List String
  | .bind name _ => [name]
  | _ => []

namespace Item

/-- Whether an item is a statement outside of headers. -/
def isStmt : Item → Bool
  | .stmt _ => true
  | .header _ | .expr _ => false

/-- Whether an item is a conditional with an alternative. -/
def hasAlternative : Item → Bool
  | .stmt (.cond _ _ (some _)) | .header (.cond _ _ (some _)) => true
  | _ => false

/-- Whether an item is a loop that tests last. -/
def testsLast : Item → Bool
  | .stmt (.doWhile _ _) | .header (.doWhile _ _) => true
  | _ => false

/-- Whether an item is a closure. -/
def isClosure : Item → Bool
  | .expr (.closure _ _ _) => true
  | _ => false

/-- The names that an item brings in: what it declares, an identifier, a
    property, or parameters. -/
def names : Item → List String
  | .stmt s | .header s => s.declared
  | .expr (.ident name) => [name]
  | .expr (.member _ property) => [property]
  | .expr (.closure params _ _) => params
  | .expr _ => []

end Item

/-- The names in a program. -/
def Program.names (p : Program) : List String := p.items.flatMap Item.names

/-! ## Section 2: Texts on one line -/

/-- A text without line feeds. -/
def OneLine (text : String) : Prop := '\n' ∉ text.toList

instance : DecidablePred OneLine := fun text => inferInstanceAs (Decidable (¬ '\n' ∈ text.toList))

@[simp] theorem oneLine_append {s t : String} : OneLine (s ++ t) ↔ OneLine s ∧ OneLine t := by
  simp [OneLine]

@[simp] theorem oneLine_ofList {chars : List Char} :
    OneLine (String.ofList chars) ↔ '\n' ∉ chars := by
  simp [OneLine]

@[simp] theorem oneLine_outlineLine {level : Nat} {text : String} :
    OneLine (outlineLine level text) ↔ OneLine text := by
  simp [outlineLine]

theorem oneLine_commaSeparated {texts : List String} (h : ∀ text ∈ texts, OneLine text) :
    OneLine (commaSeparated texts) := by
  induction texts with
  | nil => decide
  | cons text texts ih =>
    rw [List.forall_mem_cons] at h
    cases texts with
    | nil => simpa [commaSeparated] using h.1
    | cons next texts =>
      have hrest := ih h.2
      simp +decide [commaSeparated, String.intercalate_cons_cons] at hrest ⊢
      exact ⟨h.1, hrest⟩

/-- Digits are no line feeds, in any base. -/
@[simp] theorem newline_notMem_toDigits {base : Nat} (hbase : 1 < base) (n : Nat) :
    '\n' ∉ Nat.toDigits base n := by
  induction n using Nat.strongRecOn with
  | ind n ih =>
    have hdigit : ∀ d : Nat, '\n' ≠ d.digitChar := fun d => (Nat.digitChar_ne '\n' rfl).symm
    rw [Nat.toDigits_eq_if hbase]
    split
    · simp [hdigit]
    · next hn => simp [hdigit, ih (n / base) (Nat.div_lt_self (by omega) hbase)]

theorem Text.newline_notMem_quoteChar (c : Char) : '\n' ∉ Text.quoteChar c := by
  unfold Text.quoteChar
  split_ifs with hnul htab hline
  all_goals try decide
  · -- A character that stands for itself is not the line feed, which has an escape.
    simpa using Ne.symm hline
  · simp

/-- **Quoted texts have no line feeds**, whatever is quoted. -/
theorem Text.oneLine_quote (s : String) : OneLine (Text.quote s) := by
  simp +decide [Text.quote, Text.newline_notMem_quoteChar]

theorem Numeral.newline_notMem_text {n : Numeral} (h : n.exponent = none) : '\n' ∉ n.text := by
  have hsign : '\n' ∉ (if n.negative then ['-'] else []) := by
    split <;> decide
  simp [Numeral.text, h, hsign]

theorem Value.oneLine_showFloat (x : Double) : OneLine (Value.showFloat x) := by
  unfold Value.showFloat
  split_ifs
  · decide
  · decide
  · decide
  · exact oneLine_ofList.mpr (Numeral.newline_notMem_text rfl)

theorem Value.oneLine_render (v : Value) : OneLine v.render := by
  cases v with
  | null => decide
  | integer n =>
    rw [Value.render, Int.toString_eq_repr, Int.repr_eq_if]
    split <;> simp +decide [Nat.repr_eq_ofList_toDigits]
  | float x => exact Value.oneLine_showFloat x
  | string s => exact Text.oneLine_quote s
  | bool b => cases b <;> decide

/-! ## Section 3: Lines on one line -/

/-- An item whose names have no line feeds. -/
def Item.Clean (item : Item) : Prop := ∀ name ∈ item.names, OneLine name

theorem BinaryOp.oneLine_symbol (op : BinaryOp) : OneLine op.symbol := by
  cases op <;> decide

theorem UnaryOp.oneLine_symbol (op : UnaryOp) : OneLine op.symbol := by
  cases op <;> decide

theorem CallMode.oneLine_lead (mode : CallMode) : OneLine mode.lead := by
  cases mode <;> decide

mutual

/-- The text of an expression is one line. -/
theorem Expr.oneLine_render : ∀ (e : Expr), (∀ item ∈ e.items, item.Clean) → OneLine e.render
  | .literal v, _ => by
    rw [Expr.render]
    exact v.oneLine_render
  | .ident name, h => by
    rw [Expr.render]
    exact h _ List.mem_cons_self name List.mem_cons_self
  | .binary op left right, h => by
    rw [Expr.items, List.forall_mem_cons, List.forall_mem_append] at h
    obtain ⟨-, hleft, hright⟩ := h
    simp +decide [Expr.render, op.oneLine_symbol, left.oneLine_render hleft,
      right.oneLine_render hright]
  | .unary op arg, h => by
    rw [Expr.items, List.forall_mem_cons] at h
    have harg := arg.oneLine_render h.2
    rw [Expr.render]
    split <;> simp +decide [op.oneLine_symbol, harg]
  | .call callee args mode, h => by
    rw [Expr.items, List.forall_mem_cons, List.forall_mem_append] at h
    obtain ⟨-, hcallee, hargs⟩ := h
    simp +decide [Expr.render, mode.oneLine_lead, callee.oneLine_render hcallee,
      oneLine_commaSeparated (Expr.oneLine_renderList args hargs)]
  | .member object property, h => by
    rw [Expr.items, List.forall_mem_cons] at h
    have hproperty : OneLine property := h.1 property List.mem_cons_self
    simp +decide [Expr.render, object.oneLine_render h.2, hproperty]
  | .closure params body isAsync, h => by
    have hparams : ∀ param ∈ params, OneLine param := h _ List.mem_cons_self
    have hasync : OneLine (if isAsync then "async " else "") := by
      split <;> decide
    simp +decide [Expr.render, hasync, oneLine_commaSeparated hparams]

theorem Expr.oneLine_renderList : ∀ (es : List Expr), (∀ item ∈ Expr.rowItems es, item.Clean) →
    ∀ text ∈ Expr.renderList es, OneLine text
  | [], _ => by simp [Expr.renderList]
  | e :: es, h => by
    rw [Expr.rowItems, List.forall_mem_append] at h
    rw [Expr.renderList, List.forall_mem_cons]
    exact ⟨e.oneLine_render h.1, Expr.oneLine_renderList es h.2⟩

end

theorem Stmt.oneLine_inline {s : Stmt} (hname : ∀ name ∈ s.declared, OneLine name)
    (h : ∀ item ∈ s.inside, item.Clean) : OneLine s.inline := by
  cases s with
  | bind name init =>
    have hinit := init.oneLine_render h
    simp +decide [Stmt.inline, hinit, hname name List.mem_cons_self]
  | assign target value =>
    rw [Stmt.inside, List.forall_mem_append] at h
    simp +decide [Stmt.inline, target.oneLine_render h.1, value.oneLine_render h.2]
  | expr e => exact e.oneLine_render h
  | ret e => simp +decide [Stmt.inline, e.oneLine_render h]
  | _ => simp +decide [Stmt.inline]

mutual

/-- The lines of a statement are single lines. -/
theorem Stmt.oneLine_of_mem_lines (level : Nat) : ∀ (s : Stmt), (Item.stmt s).Clean →
    (∀ item ∈ s.inside, item.Clean) → ∀ line ∈ s.lines level, OneLine line
  | .cond test body none, _, h => by
    rw [Stmt.inside, List.forall_mem_append] at h
    rw [Stmt.lines, List.forall_mem_cons]
    refine ⟨?_, Stmt.oneLine_of_mem_listLines (level + 1) body h.2⟩
    simp +decide [test.oneLine_render h.1]
  | .cond test body (some orElse), _, h => by
    rw [Stmt.inside, List.forall_mem_append, List.forall_mem_append] at h
    obtain ⟨⟨htest, hbody⟩, helse⟩ := h
    rw [Stmt.lines, List.forall_mem_append, List.forall_mem_cons, List.forall_mem_cons]
    refine ⟨⟨?_, Stmt.oneLine_of_mem_listLines (level + 1) body hbody⟩,
      ?_, Stmt.oneLine_of_mem_listLines (level + 1) orElse helse⟩
    · simp +decide [test.oneLine_render htest]
    · simp +decide
  | .forLoop init test update body, _, h => by
    simp only [Stmt.inside, List.forall_mem_append, List.forall_mem_cons] at h
    obtain ⟨⟨⟨⟨hinit, hinside⟩, htest⟩, hupdate, hinside'⟩, hbody⟩ := h
    rw [Stmt.lines, List.forall_mem_cons]
    refine ⟨?_, Stmt.oneLine_of_mem_listLines (level + 1) body hbody⟩
    simp +decide [Stmt.oneLine_inline hinit hinside, test.oneLine_render htest,
      Stmt.oneLine_inline hupdate hinside']
  | .whileLoop test body, _, h => by
    rw [Stmt.inside, List.forall_mem_append] at h
    rw [Stmt.lines, List.forall_mem_cons]
    refine ⟨?_, Stmt.oneLine_of_mem_listLines (level + 1) body h.2⟩
    simp +decide [test.oneLine_render h.1]
  | .doWhile body test, _, h => by
    rw [Stmt.inside, List.forall_mem_append] at h
    rw [Stmt.lines, List.forall_mem_append, List.forall_mem_cons, List.forall_mem_singleton]
    refine ⟨⟨?_, Stmt.oneLine_of_mem_listLines (level + 1) body h.1⟩, ?_⟩
    · simp +decide
    · simp +decide [test.oneLine_render h.2]
  | .switch subject cases, _, h => by
    rw [Stmt.inside, List.forall_mem_append] at h
    rw [Stmt.lines, List.forall_mem_cons]
    refine ⟨?_, Stmt.oneLine_of_mem_listLines (level + 1) cases h.2⟩
    simp +decide [subject.oneLine_render h.1]
  | .case none body, _, h => by
    rw [Stmt.inside] at h
    rw [Stmt.lines, List.forall_mem_cons]
    refine ⟨?_, Stmt.oneLine_of_mem_listLines (level + 1) body h⟩
    simp +decide [caseLabel]
  | .case (some test) body, _, h => by
    rw [Stmt.inside, List.forall_mem_append] at h
    rw [Stmt.lines, List.forall_mem_cons]
    refine ⟨?_, Stmt.oneLine_of_mem_listLines (level + 1) body h.2⟩
    simp +decide [caseLabel, test.oneLine_render h.1]
  | .bind name init, hname, h => by
    rw [Stmt.lines, List.forall_mem_cons]
    refine ⟨?_, init.oneLine_of_mem_closureLines (level + 1) h⟩
    exact oneLine_outlineLine.mpr (Stmt.oneLine_inline hname h)
  | .assign target value, hname, h => by
    have hline : OneLine (Stmt.assign target value).inline := Stmt.oneLine_inline hname h
    rw [Stmt.inside, List.forall_mem_append] at h
    rw [Stmt.lines, List.forall_mem_cons]
    exact ⟨oneLine_outlineLine.mpr hline, value.oneLine_of_mem_closureLines (level + 1) h.2⟩
  | .expr e, _, h => by
    rw [Stmt.lines, List.forall_mem_cons]
    exact ⟨oneLine_outlineLine.mpr (e.oneLine_render h),
      e.oneLine_of_mem_closureLines (level + 1) h⟩
  | .brk, hname, h => by
    rw [Stmt.lines, List.forall_mem_singleton]
    exact oneLine_outlineLine.mpr (Stmt.oneLine_inline hname h)
  | .ret e, hname, h => by
    rw [Stmt.lines, List.forall_mem_singleton]
    exact oneLine_outlineLine.mpr (Stmt.oneLine_inline hname h)

theorem Stmt.oneLine_of_mem_listLines (level : Nat) : ∀ (ss : List Stmt),
    (∀ item ∈ Stmt.rowItems ss, item.Clean) → ∀ line ∈ Stmt.listLines level ss, OneLine line
  | [], _ => by simp [Stmt.listLines]
  | s :: ss, h => by
    rw [Stmt.rowItems, List.forall_mem_append, List.forall_mem_cons] at h
    rw [Stmt.listLines, List.forall_mem_append]
    exact ⟨s.oneLine_of_mem_lines level h.1.1 h.1.2, Stmt.oneLine_of_mem_listLines level ss h.2⟩

theorem Expr.oneLine_of_mem_closureLines (level : Nat) : ∀ (e : Expr),
    (∀ item ∈ e.items, item.Clean) → ∀ line ∈ e.closureLines level, OneLine line
  | .literal _, _ => by simp [Expr.closureLines]
  | .ident _, _ => by simp [Expr.closureLines]
  | .binary _ left right, h => by
    rw [Expr.items, List.forall_mem_cons, List.forall_mem_append] at h
    rw [Expr.closureLines, List.forall_mem_append]
    exact ⟨left.oneLine_of_mem_closureLines level h.2.1,
      right.oneLine_of_mem_closureLines level h.2.2⟩
  | .unary _ arg, h => by
    rw [Expr.items, List.forall_mem_cons] at h
    exact arg.oneLine_of_mem_closureLines level h.2
  | .call callee args _, h => by
    rw [Expr.items, List.forall_mem_cons, List.forall_mem_append] at h
    rw [Expr.closureLines, List.forall_mem_append]
    exact ⟨callee.oneLine_of_mem_closureLines level h.2.1,
      Expr.oneLine_of_mem_listClosureLines level args h.2.2⟩
  | .member object _, h => by
    rw [Expr.items, List.forall_mem_cons] at h
    exact object.oneLine_of_mem_closureLines level h.2
  | .closure params body _, h => by
    rw [Expr.items, List.forall_mem_cons] at h
    rw [Expr.closureLines, List.forall_mem_cons]
    have hparams : ∀ param ∈ params, OneLine param := h.1
    refine ⟨?_, Stmt.oneLine_of_mem_listLines (level + 1) body h.2⟩
    simp +decide [oneLine_commaSeparated hparams]

theorem Expr.oneLine_of_mem_listClosureLines (level : Nat) : ∀ (es : List Expr),
    (∀ item ∈ Expr.rowItems es, item.Clean) → ∀ line ∈ Expr.listClosureLines level es, OneLine line
  | [], _ => by simp [Expr.listClosureLines]
  | e :: es, h => by
    rw [Expr.rowItems, List.forall_mem_append] at h
    rw [Expr.listClosureLines, List.forall_mem_append]
    exact ⟨e.oneLine_of_mem_closureLines level h.1,
      Expr.oneLine_of_mem_listClosureLines level es h.2⟩

end

/-! ## Section 4: How many lines there are -/

/-- How many lines a statement has, apart from those of what is inside it. -/
def Stmt.ownLines : Stmt → Nat
  | .cond _ _ (some _) | .doWhile _ _ => 2
  | _ => 1

namespace Item

/-- How many lines items ask for. -/
def lineCount (items : List Item) : Nat :=
  items.countP isStmt + items.countP hasAlternative + items.countP testsLast +
    items.countP isClosure

@[simp] theorem lineCount_append (items others : List Item) :
    lineCount (items ++ others) = lineCount items + lineCount others := by
  simp only [lineCount, List.countP_append]
  omega

/-- A statement has a line of its own, and perhaps a second one behind what is
    inside. -/
theorem lineCount_stmt (s : Stmt) (items : List Item) :
    lineCount (.stmt s :: items) = s.ownLines + lineCount items := by
  rw [← List.singleton_append, lineCount_append]
  congr 1
  cases s with
  | cond test body orElse => cases orElse <;> rfl
  | _ => rfl

/-- Of the expressions, only closures have a line of their own. -/
theorem lineCount_expr (e : Expr) (items : List Item) :
    lineCount (.expr e :: items) = (if isClosure (.expr e) then 1 else 0) + lineCount items := by
  rw [← List.singleton_append, lineCount_append]
  congr 1
  cases e <;> rfl

end Item

/-- **Nothing hidden**: a statement whose parts ask for no line, those apart
    that the outline goes into. -/
def Stmt.ShowsParts : Stmt → Prop
  | .cond test _ _ | .whileLoop test _ | .doWhile _ test | .case (some test) _ =>
    Item.lineCount test.items = 0
  | .forLoop init test update _ =>
    Item.lineCount (.header init :: init.inside) = 0 ∧ Item.lineCount test.items = 0 ∧
      Item.lineCount (.header update :: update.inside) = 0
  | .switch subject _ => Item.lineCount subject.items = 0
  | .assign target _ => Item.lineCount target.items = 0
  | .ret e => Item.lineCount e.items = 0
  | .case none _ | .brk | .bind _ _ | .expr _ => True

/-- An item that hides nothing from the outline. -/
def Item.ShowsParts : Item → Prop
  | .stmt s => s.ShowsParts
  | .header _ | .expr _ => True

mutual

/-- A statement has a line, and one more for an alternative or a test at the
    end; the other lines are those of what is inside. -/
theorem Stmt.length_lines (level : Nat) : ∀ (s : Stmt), s.ShowsParts →
    (∀ item ∈ s.inside, item.ShowsParts) →
      (s.lines level).length = Item.lineCount (.stmt s :: s.inside)
  | .cond test body none, (htest : Item.lineCount test.items = 0), h => by
    rw [Stmt.inside, List.forall_mem_append] at h
    have hbody := Stmt.length_listLines (level + 1) body h.2
    simp only [Stmt.lines, List.length_cons, Item.lineCount_stmt, Stmt.ownLines, Stmt.inside,
      Item.lineCount_append]
    omega
  | .cond test body (some orElse), (htest : Item.lineCount test.items = 0), h => by
    rw [Stmt.inside, List.forall_mem_append, List.forall_mem_append] at h
    have hbody := Stmt.length_listLines (level + 1) body h.1.2
    have helse := Stmt.length_listLines (level + 1) orElse h.2
    simp only [Stmt.lines, List.length_cons, List.length_append, Item.lineCount_stmt,
      Stmt.ownLines, Stmt.inside, Item.lineCount_append]
    omega
  | .forLoop init test update body, hheader, h => by
    obtain ⟨hinit, htest, hupdate⟩ := hheader
    rw [Stmt.inside, List.forall_mem_append] at h
    have hbody := Stmt.length_listLines (level + 1) body h.2
    simp only [Stmt.lines, List.length_cons, Item.lineCount_stmt, Stmt.ownLines, Stmt.inside,
      Item.lineCount_append]
    omega
  | .whileLoop test body, (htest : Item.lineCount test.items = 0), h => by
    rw [Stmt.inside, List.forall_mem_append] at h
    have hbody := Stmt.length_listLines (level + 1) body h.2
    simp only [Stmt.lines, List.length_cons, Item.lineCount_stmt, Stmt.ownLines, Stmt.inside,
      Item.lineCount_append]
    omega
  | .doWhile body test, (htest : Item.lineCount test.items = 0), h => by
    rw [Stmt.inside, List.forall_mem_append] at h
    have hbody := Stmt.length_listLines (level + 1) body h.1
    simp only [Stmt.lines, List.length_cons, List.length_append, List.length_nil,
      Item.lineCount_stmt, Stmt.ownLines, Stmt.inside, Item.lineCount_append]
    omega
  | .switch subject cases, (hsubject : Item.lineCount subject.items = 0), h => by
    rw [Stmt.inside, List.forall_mem_append] at h
    have hcases := Stmt.length_listLines (level + 1) cases h.2
    simp only [Stmt.lines, List.length_cons, Item.lineCount_stmt, Stmt.ownLines, Stmt.inside,
      Item.lineCount_append]
    omega
  | .case none body, _, h => by
    rw [Stmt.inside] at h
    have hbody := Stmt.length_listLines (level + 1) body h
    simp only [Stmt.lines, List.length_cons, Item.lineCount_stmt, Stmt.ownLines, Stmt.inside]
    omega
  | .case (some test) body, (htest : Item.lineCount test.items = 0), h => by
    rw [Stmt.inside, List.forall_mem_append] at h
    have hbody := Stmt.length_listLines (level + 1) body h.2
    simp only [Stmt.lines, List.length_cons, Item.lineCount_stmt, Stmt.ownLines, Stmt.inside,
      Item.lineCount_append]
    omega
  | .bind _ init, _, h => by
    have hinit := init.length_closureLines (level + 1) h
    simp only [Stmt.lines, List.length_cons, Item.lineCount_stmt, Stmt.ownLines, Stmt.inside]
    omega
  | .assign target value, (htarget : Item.lineCount target.items = 0), h => by
    rw [Stmt.inside, List.forall_mem_append] at h
    have hvalue := value.length_closureLines (level + 1) h.2
    simp only [Stmt.lines, List.length_cons, Item.lineCount_stmt, Stmt.ownLines, Stmt.inside,
      Item.lineCount_append]
    omega
  | .expr e, _, h => by
    have he := e.length_closureLines (level + 1) h
    simp only [Stmt.lines, List.length_cons, Item.lineCount_stmt, Stmt.ownLines, Stmt.inside]
    omega
  | .brk, _, _ => rfl
  | .ret e, (he : Item.lineCount e.items = 0), _ => by
    rw [Item.lineCount_stmt, Stmt.inside, he]
    rfl

theorem Stmt.length_listLines (level : Nat) : ∀ (ss : List Stmt),
    (∀ item ∈ Stmt.rowItems ss, item.ShowsParts) →
      (Stmt.listLines level ss).length = Item.lineCount (Stmt.rowItems ss)
  | [], _ => rfl
  | s :: ss, h => by
    rw [Stmt.rowItems, List.forall_mem_append, List.forall_mem_cons] at h
    rw [Stmt.listLines, List.length_append, Stmt.rowItems, Item.lineCount_append,
      s.length_lines level h.1.1 h.1.2, Stmt.length_listLines level ss h.2]

/-- The outline of an expression has the lines of its closures. -/
theorem Expr.length_closureLines (level : Nat) : ∀ (e : Expr),
    (∀ item ∈ e.items, item.ShowsParts) → (e.closureLines level).length = Item.lineCount e.items
  | .literal _, _ => rfl
  | .ident _, _ => rfl
  | .binary _ left right, h => by
    rw [Expr.items, List.forall_mem_cons, List.forall_mem_append] at h
    rw [Expr.closureLines, List.length_append, left.length_closureLines level h.2.1,
      right.length_closureLines level h.2.2, Expr.items, Item.lineCount_expr,
      Item.lineCount_append]
    exact (Nat.zero_add _).symm
  | .unary _ arg, h => by
    rw [Expr.items, List.forall_mem_cons] at h
    rw [Expr.closureLines, arg.length_closureLines level h.2, Expr.items, Item.lineCount_expr]
    exact (Nat.zero_add _).symm
  | .call callee args _, h => by
    rw [Expr.items, List.forall_mem_cons, List.forall_mem_append] at h
    rw [Expr.closureLines, List.length_append, callee.length_closureLines level h.2.1,
      Expr.length_listClosureLines level args h.2.2, Expr.items, Item.lineCount_expr,
      Item.lineCount_append]
    exact (Nat.zero_add _).symm
  | .member object _, h => by
    rw [Expr.items, List.forall_mem_cons] at h
    rw [Expr.closureLines, object.length_closureLines level h.2, Expr.items, Item.lineCount_expr]
    exact (Nat.zero_add _).symm
  | .closure _ body _, h => by
    rw [Expr.items, List.forall_mem_cons] at h
    rw [Expr.closureLines, List.length_cons, Stmt.length_listLines (level + 1) body h.2,
      Expr.items, Item.lineCount_expr]
    exact Nat.add_comm _ _

theorem Expr.length_listClosureLines (level : Nat) : ∀ (es : List Expr),
    (∀ item ∈ Expr.rowItems es, item.ShowsParts) →
      (Expr.listClosureLines level es).length = Item.lineCount (Expr.rowItems es)
  | [], _ => rfl
  | e :: es, h => by
    rw [Expr.rowItems, List.forall_mem_append] at h
    rw [Expr.listClosureLines, List.length_append, Expr.rowItems, Item.lineCount_append,
      e.length_closureLines level h.1, Expr.length_listClosureLines level es h.2]

end

/-! ## Section 5: The text -/

theorem Program.toList_outline (p : Program) :
    p.outline.toList = (Stmt.listLines 0 p.body).flatMap fun line => line.toList ++ ['\n'] :=
  String.toList_ofList

/-- Lines without line feeds in them are counted by the line feeds between
    them. -/
theorem count_newline_flatMap {lines : List String} (h : ∀ line ∈ lines, OneLine line) :
    (lines.flatMap fun line => line.toList ++ ['\n']).count '\n' = lines.length := by
  induction lines with
  | nil => rfl
  | cons line lines ih =>
    rw [List.forall_mem_cons] at h
    have hline : line.toList.count '\n' = 0 := List.count_eq_zero.mpr h.1
    rw [List.flatMap_cons, List.count_append, List.count_append, hline, ih h.2, List.length_cons]
    exact Nat.add_comm _ _

/-- **The line feeds of an outline**: as many as the items of the program ask
    for, if names have no line feeds and nothing is hidden. -/
theorem Program.count_outline {p : Program} (hclean : ∀ item ∈ p.items, item.Clean)
    (hshows : ∀ item ∈ p.items, item.ShowsParts) :
    p.outline.toList.count '\n' = Item.lineCount p.items := by
  rw [p.toList_outline, count_newline_flatMap (Stmt.oneLine_of_mem_listLines 0 p.body hclean)]
  exact Stmt.length_listLines 0 p.body hshows

theorem Stmt.lines_ne_nil (level : Nat) (s : Stmt) : s.lines level ≠ [] := by
  cases s with
  | cond test body orElse => cases orElse <;> simp [Stmt.lines]
  | _ => simp [Stmt.lines]

theorem Stmt.listLines_eq_nil_iff {level : Nat} {ss : List Stmt} :
    Stmt.listLines level ss = [] ↔ ss = [] := by
  cases ss with
  | nil => simp [Stmt.listLines]
  | cons s ss => simp [Stmt.listLines, s.lines_ne_nil]

/-- An outline ends with a line feed, the empty one apart. -/
theorem Program.getLast?_outline (p : Program) :
    p.outline.toList.getLast? = some '\n' ↔ p.body ≠ [] := by
  rw [p.toList_outline, ← not_iff_not, not_not, ← @Stmt.listLines_eq_nil_iff 0]
  generalize Stmt.listLines 0 p.body = lines
  rcases List.eq_nil_or_concat lines with rfl | ⟨init, last, rfl⟩
  · simp
  · simp

end BlockFlow
