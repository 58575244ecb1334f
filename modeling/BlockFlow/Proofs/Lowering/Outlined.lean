import BlockFlow.Proofs.Lowering.Assembled
import BlockFlow.Proofs.Program.Lines

/-! # Outlines of compiled programs

    The outline looks for closures in declarations, assigned values and
    evaluated expressions only. The compiler puts them nowhere else: tests,
    subjects, targets, returned expressions and headers of loops are made of
    arguments, dotted names and literals, and none of these is a closure.

    - `Flow.rowShowsAll_of_toStmts`: a compiled flow hides nothing, by induction
      over compiled flows.
    - **Main statement** (`Source.count_outline_of_compile`): the outline of a
      compiled program has exactly one line for every statement, alternative,
      test at the end of a loop, and closure. -/

namespace BlockFlow

/-! ## Section 1: Values ask for no lines -/

theorem Expr.rowItems_append (es es' : List Expr) :
    Expr.rowItems (es ++ es') = Expr.rowItems es ++ Expr.rowItems es' := by
  induction es with
  | nil => rfl
  | cons e es ih => simp [Expr.rowItems, ih]

theorem Expr.rowItems_singleton (e : Expr) : Expr.rowItems [e] = e.items := by
  rw [Expr.rowItems, Expr.rowItems, List.append_nil]

/-- Items that ask for no line have no statements among them, so nothing can
    be hidden there. -/
theorem Item.showsParts_of_lineCount {items : List Item} (h : Item.lineCount items = 0) :
    ∀ item ∈ items, item.ShowsParts := by
  intro item hitem
  cases item with
  | header s => trivial
  | expr e => trivial
  | stmt s =>
    have hstmts : items.countP Item.isStmt = 0 := by
      unfold Item.lineCount at h
      omega
    exact absurd rfl (List.countP_eq_zero.mp hstmts _ hitem)

theorem Expr.lineCount_rowItems {es : List Expr} (h : ∀ e ∈ es, Item.lineCount e.items = 0) :
    Item.lineCount (Expr.rowItems es) = 0 := by
  induction es with
  | nil => rfl
  | cons e es ih =>
    rw [List.forall_mem_cons] at h
    rw [Expr.rowItems, Item.lineCount_append, h.1, ih h.2]

theorem Expr.lineCount_items_binary {op : BinaryOp} {left right : Expr}
    (hleft : Item.lineCount left.items = 0) (hright : Item.lineCount right.items = 0) :
    Item.lineCount (Expr.binary op left right).items = 0 := by
  rw [Expr.items, Item.lineCount_expr, Item.lineCount_append, hleft, hright]
  rfl

section values

variable {settings : Settings} {known : String → Prop}

theorem Expr.IsChain.lineCount_items {e : Expr} (h : e.IsChain known) :
    Item.lineCount e.items = 0 := by
  induction h with
  | ident h => rfl
  | member h ih =>
    rw [Expr.items, Item.lineCount_expr, ih]
    rfl

theorem Expr.lineCount_items_path (dotted : String) :
    Item.lineCount (Expr.path dotted).items = 0 := by
  have hchain : (Expr.path dotted).IsChain fun _ => True := Expr.isChain_path trivial
  exact hchain.lineCount_items

theorem Expr.IsValue.lineCount_items {e : Expr} (h : e.IsValue settings known) :
    Item.lineCount e.items = 0 := by
  induction h with
  | literal v => rfl
  | ident h => rfl
  | property name => rfl
  | binary hleft hright ihleft ihright => exact Expr.lineCount_items_binary ihleft ihright
  | unary harg ih =>
    rw [Expr.items, Item.lineCount_expr, ih]
    rfl
  | apply h hargs ih =>
    rw [Expr.items, Item.lineCount_expr, Item.lineCount_append, Expr.lineCount_rowItems ih]
    rfl
  | function h hargs ih =>
    rw [Expr.items, Item.lineCount_expr, Item.lineCount_append, Expr.lineCount_items_path,
      Expr.lineCount_rowItems ih]
    rfl

theorem Settings.lineCount_items_operand (settings : Settings) (args : List Arg) (n : Nat) :
    Item.lineCount (settings.operand args n).items = 0 := by
  have hvalue : (settings.operand args n).IsValue settings fun _ => True :=
    Settings.isValue_operand (fun _ _ => trivial) n
  exact hvalue.lineCount_items

theorem Arg.lineCount_rowItems_toExprs (settings : Settings) (args : List Arg) :
    Item.lineCount (Expr.rowItems (Arg.toExprs settings args)) = 0 := by
  apply Expr.lineCount_rowItems
  intro e he
  have hvalue : e.IsValue settings fun _ => True :=
    Arg.isValue_toExprs args (fun _ _ => trivial) e he
  exact hvalue.lineCount_items

end values

/-! ## Section 2: Compiled flows hide nothing -/

/-- A statement that hides nothing, nor does anything inside it. -/
def Stmt.ShowsAll (s : Stmt) : Prop := s.ShowsParts ∧ ∀ item ∈ s.inside, item.ShowsParts

/-- Statements that hide nothing. -/
def Stmt.RowShowsAll (ss : List Stmt) : Prop := ∀ item ∈ Stmt.rowItems ss, item.ShowsParts

theorem Stmt.rowShowsAll_cons {s : Stmt} {ss : List Stmt} :
    Stmt.RowShowsAll (s :: ss) ↔ s.ShowsAll ∧ Stmt.RowShowsAll ss := by
  unfold Stmt.RowShowsAll Stmt.ShowsAll
  rw [Stmt.rowItems, List.forall_mem_append, List.forall_mem_cons]
  rfl

theorem Stmt.rowShowsAll_iff {ss : List Stmt} :
    Stmt.RowShowsAll ss ↔ ∀ s ∈ ss, s.ShowsAll := by
  induction ss with
  | nil => simp [Stmt.RowShowsAll, Stmt.rowItems]
  | cons s ss ih => rw [Stmt.rowShowsAll_cons, List.forall_mem_cons, ih]

theorem Stmt.rowShowsAll_concat {ss : List Stmt} {last : Stmt} (hss : Stmt.RowShowsAll ss)
    (hlast : last.ShowsAll) : Stmt.RowShowsAll (ss ++ [last]) := by
  rw [Stmt.rowShowsAll_iff] at hss ⊢
  intro s hs
  rcases List.mem_append.mp hs with hs | hs
  · exact hss s hs
  · rw [List.mem_singleton.mp hs]
    exact hlast

section flows

variable {settings : Settings}

/-- What evaluates a call hides nothing if the arguments do not. -/
theorem Stmt.showsAll_call {callee : Expr} {args : List Expr} {mode : CallMode}
    (hcallee : Item.lineCount callee.items = 0)
    (hargs : ∀ item ∈ Expr.rowItems args, item.ShowsParts) :
    (Stmt.expr (.call callee args mode)).ShowsAll := by
  refine ⟨trivial, ?_⟩
  rw [Stmt.inside, Expr.items, List.forall_mem_cons, List.forall_mem_append]
  exact ⟨trivial, Item.showsParts_of_lineCount hcallee, hargs⟩

theorem Settings.showsAll_endMarker (settings : Settings) (marker : String) :
    (settings.endMarker marker).ShowsAll :=
  ⟨rfl, Item.showsParts_of_lineCount rfl⟩

/-- A closure around a compiled flow hides nothing if the flow does not. -/
theorem Settings.showsParts_closure {params : List String} {stmts : List Stmt} {marker : String}
    {isAsync : Bool} (h : Stmt.RowShowsAll stmts) :
    ∀ item ∈ (Expr.closure params (stmts ++ [settings.endMarker marker]) isAsync).items,
      item.ShowsParts := by
  rw [Expr.items, List.forall_mem_cons]
  exact ⟨trivial, Stmt.rowShowsAll_concat h (settings.showsAll_endMarker marker)⟩

theorem Stmt.showsAll_assign {target value : Expr} (htarget : Item.lineCount target.items = 0)
    (hvalue : Item.lineCount value.items = 0) : (Stmt.assign target value).ShowsAll := by
  refine ⟨htarget, ?_⟩
  rw [Stmt.inside, List.forall_mem_append]
  exact ⟨Item.showsParts_of_lineCount htarget, Item.showsParts_of_lineCount hvalue⟩

/-- The header of a counted loop has nothing to show. -/
theorem Settings.showsAll_countedLoop (settings : Settings) (depth : Depth) {bound : Expr}
    {body : List Stmt} (hbound : Item.lineCount bound.items = 0) (hbody : Stmt.RowShowsAll body) :
    (settings.countedLoop depth bound body).ShowsAll := by
  have htest := @Expr.lineCount_items_binary .lt
    (.ident (settings.conventions.counter depth)) bound rfl hbound
  refine ⟨⟨rfl, htest, rfl⟩, ?_⟩
  rw [Settings.countedLoop, Stmt.inside]
  simp only [List.forall_mem_append, List.forall_mem_cons]
  refine ⟨⟨⟨⟨trivial, ?_⟩, Item.showsParts_of_lineCount htest⟩, trivial, ?_⟩, hbody⟩
  · exact Item.showsParts_of_lineCount rfl
  · exact Item.showsParts_of_lineCount rfl

theorem Settings.showsAll_awaitMethod {name : String} {args : List Expr}
    (hargs : ∀ item ∈ Expr.rowItems args, item.ShowsParts) :
    (settings.awaitMethod name args).ShowsAll := by
  have hcontext : settings.context.IsChain fun _ => True := .ident trivial
  exact Stmt.showsAll_call (hcontext.memberPath name).lineCount_items hargs

theorem InnerFlow.rowShowsAll {depth : Depth} {flow : Option Flow} {stmts : List Stmt}
    (h : InnerFlow (fun _ _ stmts => Stmt.RowShowsAll stmts) depth flow stmts) :
    Stmt.RowShowsAll stmts := by
  cases flow with
  | none =>
    cases h
    exact List.forall_mem_nil _
  | some flow => exact h

/-- **One step of lowering hides nothing**, given that of the inner flows. -/
theorem Lowered.showsAll {depth : Depth} {block : Block} {stmt : Stmt}
    (h : Lowered settings (InnerFlow fun _ _ stmts => Stmt.RowShowsAll stmts) depth block stmt) :
    stmt.ShowsAll := by
  have hoperand := settings.lineCount_items_operand block.args
  have hparts : ∀ n, ∀ item ∈ (settings.operand block.args n).items, item.ShowsParts := fun n =>
    Item.showsParts_of_lineCount (hoperand n)
  have hargs : ∀ item ∈ Expr.rowItems (Arg.toExprs settings block.args), item.ShowsParts :=
    Item.showsParts_of_lineCount (Arg.lineCount_rowItems_toExprs settings block.args)
  cases h with
  | store => exact ⟨trivial, hparts 0⟩
  | perform => exact Stmt.showsAll_call rfl (Item.showsParts_of_lineCount rfl)
  | ifThen hbody => exact ⟨hoperand 0, List.forall_mem_append.mpr ⟨hparts 0, hbody.rowShowsAll⟩⟩
  | ifThenElse hbody helse =>
    refine ⟨hoperand 0, ?_⟩
    rw [Stmt.inside, List.forall_mem_append, List.forall_mem_append]
    exact ⟨⟨hparts 0, hbody.rowShowsAll⟩, helse.rowShowsAll⟩
  | repeatTimes hbody => exact settings.showsAll_countedLoop depth (hoperand 0) hbody.rowShowsAll
  | whileTest hbody => exact ⟨hoperand 0, List.forall_mem_append.mpr ⟨hparts 0, hbody.rowShowsAll⟩⟩
  | forever hbody =>
    exact ⟨rfl, List.forall_mem_append.mpr ⟨Item.showsParts_of_lineCount rfl, hbody.rowShowsAll⟩⟩
  | untilTest hbody =>
    exact ⟨hoperand 0, List.forall_mem_append.mpr ⟨hbody.rowShowsAll, hparts 0⟩⟩
  | leave => exact ⟨trivial, List.forall_mem_nil _⟩
  | switch hbody => exact ⟨hoperand 0, List.forall_mem_append.mpr ⟨hparts 0, hbody.rowShowsAll⟩⟩
  | case hbody =>
    have hleave : Stmt.brk.ShowsAll := ⟨trivial, List.forall_mem_nil _⟩
    have hinner := Stmt.rowShowsAll_concat hbody.rowShowsAll hleave
    exact ⟨hoperand 0, List.forall_mem_append.mpr ⟨hparts 0, hinner⟩⟩
  | defaultCase hbody => exact ⟨trivial, hbody.rowShowsAll⟩
  | increment htarget =>
    exact Stmt.showsAll_assign (hoperand 0) (Expr.lineCount_items_binary (hoperand 0) (hoperand 1))
  | incrementOne htarget =>
    exact Stmt.showsAll_assign (hoperand 0) (Expr.lineCount_items_binary (hoperand 0) rfl)
  | decrementOne htarget =>
    exact Stmt.showsAll_assign (hoperand 0) (Expr.lineCount_items_binary (hoperand 0) rfl)
  | setter hrole => exact Stmt.showsAll_assign rfl (hoperand 0)
  | method hrole => exact Settings.showsAll_awaitMethod hargs
  | clamp hrole hbody =>
    apply Settings.showsAll_awaitMethod
    rw [Expr.rowItems_append, List.forall_mem_append, Expr.rowItems_singleton]
    exact ⟨hargs, Settings.showsParts_closure hbody.rowShowsAll⟩
  | print hrole => exact Stmt.showsAll_call (Expr.lineCount_items_path _) hargs

/-- **Compiled flows hide nothing.** -/
theorem Flow.rowShowsAll_of_toStmts {flow : Flow} {depth : Depth} {stmts : List Stmt}
    (h : Flow.toStmts settings depth flow = .ok stmts) : Stmt.RowShowsAll stmts := by
  have hkeeps : LoweringKeeps settings (fun _ _ stmt => stmt.ShowsAll)
      (fun _ _ stmts => Stmt.RowShowsAll stmts) := by
    constructor
    · intro depth block stmt hstep
      exact hstep.showsAll
    · intro depth
      exact List.forall_mem_nil _
    · intro depth block blocks stmt stmts hstmt hstmts
      exact Stmt.rowShowsAll_cons.mpr ⟨hstmt, hstmts⟩
  exact Flow.toStmts_induction hkeeps flow h

/-! ## Section 3: Whole programs -/

theorem TopLevel.showsAll {source : Source} {s : Stmt} (h : TopLevel settings source s) :
    s.ShowsAll := by
  cases h with
  | action hflow hstmts =>
    have hinner := Flow.rowShowsAll_of_toStmts hstmts
    exact ⟨trivial, Settings.showsParts_closure hinner⟩
  | mouse hflow hstmts =>
    have hinner := Flow.rowShowsAll_of_toStmts hstmts
    apply Stmt.showsAll_call (Expr.lineCount_items_path _)
    rw [Expr.rowItems_singleton]
    exact Settings.showsParts_closure hinner
  | start => exact Stmt.showsAll_call (Expr.lineCount_items_path _) (List.forall_mem_nil _)

theorem Source.showsParts_of_compile {source : Source} {p : Program}
    (h : source.compile settings = .ok p) : ∀ item ∈ p.items, item.ShowsParts := by
  have hbody : Stmt.RowShowsAll p.body := by
    rw [Stmt.rowShowsAll_iff]
    intro s hs
    exact (Source.topLevel_of_compile h hs).showsAll
  exact hbody

/-- **Outlines list every node once**: where no name holds a line feed, the
    outline of a compiled program has one line for every statement outside of
    headers, one more for every alternative and for every loop that tests
    last, and one for every closure. Its text ends with a line feed, unless
    there is no statement. -/
theorem Source.count_outline_of_compile {source : Source} {p : Program}
    (h : source.compile settings = .ok p) (hnames : ∀ name ∈ p.names, '\n' ∉ name.toList) :
    p.outline.toList.count '\n' =
        p.items.countP Item.isStmt + p.items.countP Item.hasAlternative +
          p.items.countP Item.testsLast + p.items.countP Item.isClosure ∧
      (p.outline.toList.getLast? = some '\n' ↔ p.body ≠ []) := by
  have hclean : ∀ item ∈ p.items, item.Clean := by
    intro item hitem name hname
    exact hnames name (List.mem_flatMap.mpr ⟨item, hitem, hname⟩)
  exact ⟨Program.count_outline hclean (Source.showsParts_of_compile h), p.getLast?_outline⟩

/-- A clamp in a loop that tests last, behind a conditional with an
    alternative, which prints a text with a line feed in it. -/
theorem Source.count_outline_of_compile_nested :
    let settings : Settings :=
      ⟨{ methods := [("note", "play.note")], clamps := ["note"] }, {}⟩
    let print : Block := ⟨.op "print", [.literal (.string "a\nb")], none, none⟩
    let note : Block := ⟨.op "note", [.box "x"], some [print], none⟩
    let loop : Block := ⟨.op "until", [.box "done"], some [note], none⟩
    let choose : Block := ⟨.op "ifthenelse", [.box "x"], some [loop], some [print]⟩
    let rounds : Block := ⟨.op "repeat", [.literal (.integer 3)], some [choose], none⟩
    let source : Source := .project ⟨[("f", [rounds])], [[note]]⟩
    ∃ p, source.compile settings = .ok p ∧ (∀ name ∈ p.names, '\n' ∉ name.toList) ∧
      p.outline.toList.count '\n' = 21 ∧ p.outline.toList.getLast? = some '\n' := by
  intro settings print note loop choose rounds source
  let p := (source.compile settings).toOption.getD default
  have hsource : source.compile settings = .ok p := rfl
  have hnames : ∀ name ∈ p.names, '\n' ∉ name.toList := by decide
  obtain ⟨hcount, hend⟩ := Source.count_outline_of_compile hsource hnames
  refine ⟨p, hsource, hnames, ?_, hend.mpr (List.cons_ne_nil _ _)⟩
  rw [hcount]
  decide

end flows

end BlockFlow
