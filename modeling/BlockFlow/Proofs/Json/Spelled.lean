import BlockFlow.Proofs.Json.Layout
import BlockFlow.Proofs.Json.RoundTrip

/-! # All spellings of a program read alike

    The layout of a program says which parts of its JSON are variants and which
    are records. What is written for it is the JSON of the program
    (`Program.toJson_layout`), and a text spells the program if it spells the
    layout, with any blanks (`Program.SpelledBy`).

    The readers take every spelling for which there is room to the same
    program. This is by recursion on the program: each form of an expression
    or statement names its variant and reads its fields, in whatever way they
    are put down (`Layout.Matches`). -/

namespace BlockFlow

open Json (node Layout Fields)

/-! ## Section 1: Layouts of programs -/

/-- The layout of a scalar value. -/
def Value.layout : Value → Layout
  | .null => .unit "Null"
  | .integer n => .tagged "Integer" (.plain (.number (.ofInt64 n)))
  | .float x => .tagged "Float" (.plain (.ofDouble x))
  | .string s => .tagged "String" (.plain (.string s))
  | .bool b => .tagged "Bool" (.plain (.bool b))

mutual

/-- The layout of an expression. -/
def Expr.layout : Expr → Layout
  | .literal v => .tagged "Literal" v.layout
  | .ident name => .tagged "Ident" (.plain (.string name))
  | .binary op left right =>
    .tagged "Binary"
      (.record [("op", some (.unit op.name)), ("left", some left.layout),
        ("right", some right.layout)])
  | .unary op arg =>
    .tagged "Unary" (.record [("op", some (.unit op.name)), ("arg", some arg.layout)])
  | .call callee args mode =>
    .tagged "Call"
      (.record [("callee", some callee.layout), ("args", some (.list (Expr.listLayout args))),
        ("mode", some (.unit mode.name))])
  | .member object property =>
    .tagged "Member"
      (.record [("object", some object.layout), ("property", some (.plain (.string property)))])
  | .closure params body isAsync =>
    .tagged "Closure"
      (.record [("params", some (.list (params.map fun name => .plain (.string name)))),
        ("body", some (.list (Stmt.listLayout body))), ("is_async", some (.plain (.bool isAsync)))])

/-- The layouts of expressions. -/
def Expr.listLayout : List Expr → List Layout
  | [] => []
  | e :: es => e.layout :: Expr.listLayout es

/-- The layout of a statement. -/
def Stmt.layout : Stmt → Layout
  | .cond test body none =>
    .tagged "If"
      (.record [("test", some test.layout), ("consequent", some (.list (Stmt.listLayout body))),
        ("alternate", none)])
  | .cond test body (some orElse) =>
    .tagged "If"
      (.record [("test", some test.layout), ("consequent", some (.list (Stmt.listLayout body))),
        ("alternate", some (.list (Stmt.listLayout orElse)))])
  | .forLoop init test update body =>
    .tagged "For"
      (.record [("init", some init.layout), ("test", some test.layout),
        ("update", some update.layout), ("body", some (.list (Stmt.listLayout body)))])
  | .whileLoop test body =>
    .tagged "While"
      (.record [("test", some test.layout), ("body", some (.list (Stmt.listLayout body)))])
  | .doWhile body test =>
    .tagged "DoWhile"
      (.record [("body", some (.list (Stmt.listLayout body))), ("test", some test.layout)])
  | .switch subject cases =>
    .tagged "Switch"
      (.record [("discriminant", some subject.layout),
        ("cases", some (.list (Stmt.listLayout cases)))])
  | .case none body =>
    .tagged "Case"
      (.record [("test", none), ("consequent", some (.list (Stmt.listLayout body)))])
  | .case (some test) body =>
    .tagged "Case"
      (.record [("test", some test.layout), ("consequent", some (.list (Stmt.listLayout body)))])
  | .brk => .unit "Break"
  | .bind name init =>
    .tagged "Let" (.record [("name", some (.plain (.string name))), ("init", some init.layout)])
  | .assign target value =>
    .tagged "Assign" (.record [("target", some target.layout), ("value", some value.layout)])
  | .expr e => .tagged "Expr" e.layout
  | .ret e => .tagged "Return" e.layout

/-- The layouts of statements. -/
def Stmt.listLayout : List Stmt → List Layout
  | [] => []
  | s :: ss => s.layout :: Stmt.listLayout ss

end

/-- The layout of a program. -/
def Program.layout (p : Program) : Layout :=
  .record [("body", some (.list (Stmt.listLayout p.body)))]

/-- **A text that spells a program**: its layout in any of its spellings, with
    blanks anywhere between the tokens. -/
def Program.SpelledBy (p : Program) (text : String) : Prop :=
  ∃ form, p.layout.Spelled form ∧ Json.Spaced form.lexemes text.toList

theorem Value.toJson_layout (v : Value) : v.layout.toJson = v.toJson := by
  cases v <;> simp only [Value.layout, Value.toJson, Layout.toJson, Json.tagged]

theorem itemsToJson_plain (names : List String) :
    Layout.itemsToJson (names.map fun name => .plain (.string name)) = names.map Json.string := by
  induction names with
  | nil => rw [List.map_nil, Layout.itemsToJson, List.map_nil]
  | cons name names ih =>
    rw [List.map_cons, Layout.itemsToJson, ih, Layout.toJson, List.map_cons]

mutual

/-- The layout of an expression is written as its JSON. -/
theorem Expr.toJson_layout : ∀ e : Expr, e.layout.toJson = e.toJson
  | .literal v => by
    simp only [Expr.layout, Expr.toJson, Layout.toJson, Json.tagged, v.toJson_layout]
  | .ident name => by simp only [Expr.layout, Expr.toJson, Layout.toJson, Json.tagged]
  | .binary op left right => by
    simp only [Expr.layout, Expr.toJson, Layout.toJson, Layout.fieldsToJson, Json.tagged,
      left.toJson_layout, right.toJson_layout]
  | .unary op arg => by
    simp only [Expr.layout, Expr.toJson, Layout.toJson, Layout.fieldsToJson, Json.tagged,
      arg.toJson_layout]
  | .call callee args mode => by
    simp only [Expr.layout, Expr.toJson, Layout.toJson, Layout.fieldsToJson, Json.tagged,
      callee.toJson_layout, Expr.itemsToJson_listLayout args]
  | .member object property => by
    simp only [Expr.layout, Expr.toJson, Layout.toJson, Layout.fieldsToJson, Json.tagged,
      object.toJson_layout]
  | .closure params body isAsync => by
    simp only [Expr.layout, Expr.toJson, Layout.toJson, Layout.fieldsToJson, Json.tagged,
      itemsToJson_plain, Stmt.itemsToJson_listLayout body]

theorem Expr.itemsToJson_listLayout :
    ∀ es : List Expr, Layout.itemsToJson (Expr.listLayout es) = Expr.listToJson es
  | [] => by rw [Expr.listLayout, Layout.itemsToJson, Expr.listToJson]
  | e :: es => by
    rw [Expr.listLayout, Layout.itemsToJson, e.toJson_layout, Expr.itemsToJson_listLayout es,
      Expr.listToJson]

/-- The layout of a statement is written as its JSON. -/
theorem Stmt.toJson_layout : ∀ s : Stmt, s.layout.toJson = s.toJson
  | .cond test body none => by
    simp only [Stmt.layout, Stmt.toJson, Layout.toJson, Layout.fieldsToJson, Json.tagged,
      test.toJson_layout, Stmt.itemsToJson_listLayout body]
  | .cond test body (some orElse) => by
    simp only [Stmt.layout, Stmt.toJson, Layout.toJson, Layout.fieldsToJson, Json.tagged,
      test.toJson_layout, Stmt.itemsToJson_listLayout body, Stmt.itemsToJson_listLayout orElse]
  | .forLoop init test update body => by
    simp only [Stmt.layout, Stmt.toJson, Layout.toJson, Layout.fieldsToJson, Json.tagged,
      init.toJson_layout, test.toJson_layout, update.toJson_layout,
      Stmt.itemsToJson_listLayout body]
  | .whileLoop test body => by
    simp only [Stmt.layout, Stmt.toJson, Layout.toJson, Layout.fieldsToJson, Json.tagged,
      test.toJson_layout, Stmt.itemsToJson_listLayout body]
  | .doWhile body test => by
    simp only [Stmt.layout, Stmt.toJson, Layout.toJson, Layout.fieldsToJson, Json.tagged,
      test.toJson_layout, Stmt.itemsToJson_listLayout body]
  | .switch subject cases => by
    simp only [Stmt.layout, Stmt.toJson, Layout.toJson, Layout.fieldsToJson, Json.tagged,
      subject.toJson_layout, Stmt.itemsToJson_listLayout cases]
  | .case none body => by
    simp only [Stmt.layout, Stmt.toJson, Layout.toJson, Layout.fieldsToJson, Json.tagged,
      Stmt.itemsToJson_listLayout body]
  | .case (some test) body => by
    simp only [Stmt.layout, Stmt.toJson, Layout.toJson, Layout.fieldsToJson, Json.tagged,
      test.toJson_layout, Stmt.itemsToJson_listLayout body]
  | .brk => by simp only [Stmt.layout, Stmt.toJson, Layout.toJson]
  | .bind name init => by
    simp only [Stmt.layout, Stmt.toJson, Layout.toJson, Layout.fieldsToJson, Json.tagged,
      init.toJson_layout]
  | .assign target value => by
    simp only [Stmt.layout, Stmt.toJson, Layout.toJson, Layout.fieldsToJson, Json.tagged,
      target.toJson_layout, value.toJson_layout]
  | .expr e => by
    simp only [Stmt.layout, Stmt.toJson, Layout.toJson, Json.tagged, e.toJson_layout]
  | .ret e => by
    simp only [Stmt.layout, Stmt.toJson, Layout.toJson, Json.tagged, e.toJson_layout]

theorem Stmt.itemsToJson_listLayout :
    ∀ ss : List Stmt, Layout.itemsToJson (Stmt.listLayout ss) = Stmt.listToJson ss
  | [] => by rw [Stmt.listLayout, Layout.itemsToJson, Stmt.listToJson]
  | s :: ss => by
    rw [Stmt.listLayout, Layout.itemsToJson, s.toJson_layout, Stmt.itemsToJson_listLayout ss,
      Stmt.listToJson]

end

/-- What is written for a program is written for its layout. -/
theorem Program.toJson_layout (p : Program) : p.layout.toJson = p.toJson := by
  simp only [Program.layout, Program.toJson, Layout.toJson, Layout.fieldsToJson,
    Stmt.itemsToJson_listLayout]

/-- The text of a program is one of its spellings. -/
theorem Program.spelledBy_toText (p : Program) : p.SpelledBy p.toText := by
  have hspelled := p.layout.spelled_toJson
  have hspaced := Json.spaced_written Json.Style.compact_blank p.toJson
  rw [p.toJson_layout] at hspelled
  refine ⟨Json.Form.ofJson p.toJson, hspelled, ?_⟩
  rw [Program.toText, Json.compact, String.toList_ofList]
  exact hspaced

/-! ## Section 2: Reading a spelling -/

/-- A variant with fields is read from all its spellings. -/
theorem reads_withFields_layout {α γ : Type} {variants : List (Json.Variant α)}
    {type name : String} {n : Nat} {fields : Parts → Fields γ} {make : γ → α}
    {layouts : List (String × Option Layout)} {value : γ} {a : α}
    (hfind : Json.Variant.find variants name =
      .ok (withFields type name (Parts.inside n) fields make).content)
    (h : ∀ k, Layout.Matches k (fields (Parts.withRoom k)) layouts value)
    (hmake : make value = a) :
    Layout.Reads n (Json.choice variants (decide (0 < n))) a
      (.tagged name (.record layouts)) := by
  subst hmake
  refine .tagged hfind ?_
  match n with
  | 0 | 1 =>
    -- The variant and its fields are two containers, for which there is no room.
    intro form hform hroom
    have hpos := hform.height_pos trivial
    omega
  | n + 2 => exact (Layout.Reads.record (h n)).map make

theorem BinaryOp.reads_layout (op : BinaryOp) (n : Nat) :
    Layout.Reads n (Parts.withRoom n).binaryOp op (.unit op.name) :=
  .unit (by cases op <;> rfl)

theorem UnaryOp.reads_layout (op : UnaryOp) (n : Nat) :
    Layout.Reads n (Parts.withRoom n).unaryOp op (.unit op.name) :=
  .unit (by cases op <;> rfl)

theorem CallMode.reads_layout (mode : CallMode) (n : Nat) :
    Layout.Reads n (Parts.withRoom n).mode mode (.unit mode.name) :=
  .unit (by cases mode <;> rfl)

theorem reads_text_layout (s : String) (n : Nat) :
    Layout.Reads n Json.text s (.plain (.string s)) :=
  .plain (by rw [node]; rfl)

theorem reads_flag_layout (b : Bool) (n : Nat) : Layout.Reads n Json.flag b (.plain (.bool b)) :=
  .plain (by rw [node]; rfl)

theorem reads_names_layout (names : List String) (n : Nat) :
    Layout.Reads n (Parts.withRoom n).names names
      (.list (names.map fun name => .plain (.string name))) :=
  .list (fun _ => Json.text) (fun n => (Parts.withRoom n).names) (fun _ _ => rfl)
    (fun name _ k => reads_text_layout name k) n

theorem Value.reads_layout (v : Value) (h : ∀ x ∈ v.floats, x.isFinite = true ∧ x.ReadsBack)
    (n : Nat) : Layout.Reads n (Value.read n) v v.layout := by
  cases v with
  | null => exact .unit rfl
  | integer m => exact .tagged rfl (.map Value.integer (.plain (Json.int64_ofInt64 m)))
  | float x =>
    obtain ⟨hfinite, hback⟩ := h x List.mem_cons_self
    exact .tagged rfl (.map Value.float (.plain ((Double.reads_ofDouble hback).1 hfinite)))
  | string s => exact .tagged rfl (.map Value.string (reads_text_layout s _))
  | bool b => exact .tagged rfl (.map Value.bool (reads_flag_layout b _))

theorem Expr.listLayout_eq_map (es : List Expr) : Expr.listLayout es = es.map Expr.layout := by
  induction es with
  | nil => rfl
  | cons e es ih => rw [Expr.listLayout, ih, List.map_cons]

theorem Stmt.listLayout_eq_map (ss : List Stmt) : Stmt.listLayout ss = ss.map Stmt.layout := by
  induction ss with
  | nil => rfl
  | cons s ss ih => rw [Stmt.listLayout, ih, List.map_cons]

theorem Expr.reads_listLayout {es : List Expr}
    (h : ∀ e ∈ es, ∀ k, Layout.Reads k (Expr.read k) e e.layout) (n : Nat) :
    Layout.Reads n (Expr.readList n) es (.list (Expr.listLayout es)) := by
  rw [Expr.listLayout_eq_map]
  exact .list Expr.read Expr.readList (fun _ _ => by rw [Expr.readList]) h n

theorem Stmt.reads_listLayout {ss : List Stmt}
    (h : ∀ s ∈ ss, ∀ k, Layout.Reads k (Stmt.read k) s s.layout) (n : Nat) :
    Layout.Reads n (Stmt.readList n) ss (.list (Stmt.listLayout ss)) := by
  rw [Stmt.listLayout_eq_map]
  exact .list Stmt.read Stmt.readList (fun _ _ => by rw [Stmt.readList]) h n

/-- A statement that takes a container is read as one of the variants. -/
theorem Stmt.reads_of_choice {n : Nat} {s : Stmt} {layout : Layout}
    (hcontainer : layout.IsContainer)
    (h : Layout.Reads n
      (Json.choice (Stmt.variants (Expr.read (n - 1)) (Parts.inside n)) (decide (0 < n))) s
      layout) :
    Layout.Reads n (Stmt.read n) s layout := by
  cases n with
  | zero =>
    intro form hform hroom
    have hpos := hform.height_pos hcontainer
    omega
  | succ n =>
    rw [Stmt.read_succ]
    exact h

theorem Expr.isContainer_layout (e : Expr) : e.layout.IsContainer := by
  cases e <;> rw [Expr.layout] <;> trivial

-- Every case names the variant (the `rfl`) and reads its fields in the order
-- of their declaration, which need not be the order of the text.
mutual

/-- An expression is read from all its spellings. -/
theorem Expr.reads_layout :
    ∀ (e : Expr), (∀ x ∈ e.floats, x.isFinite = true ∧ x.ReadsBack) →
      ∀ n, Layout.Reads n (Expr.read n) e e.layout
  | .literal v, h, n => by
    rw [Expr.layout, funext (Expr.read_eq n)]
    exact .tagged rfl ((v.reads_layout h (n - 1)).map Expr.literal)
  | .ident name, h, n => by
    rw [Expr.layout, funext (Expr.read_eq n)]
    exact .tagged rfl ((reads_text_layout name (n - 1)).map Expr.ident)
  | .binary op left right, h, n => by
    obtain ⟨hleft, hright⟩ := List.forall_mem_append.mp h
    have hleft := left.reads_layout hleft
    have hright := right.reads_layout hright
    rw [Expr.layout, funext (Expr.read_eq n)]
    exact reads_withFields_layout rfl
      (fun k => .given (op.reads_layout k) (by simp) <| .given (hleft k) (by simp) <|
        .given (hright k) (by simp) .nil) rfl
  | .unary op arg, h, n => by
    have harg := arg.reads_layout h
    rw [Expr.layout, funext (Expr.read_eq n)]
    exact reads_withFields_layout rfl
      (fun k => .given (op.reads_layout k) (by simp) <| .given (harg k) (by simp) .nil) rfl
  | .call callee args mode, h, n => by
    obtain ⟨hcallee, hargs⟩ := List.forall_mem_append.mp h
    have hcallee := callee.reads_layout hcallee
    have hargs := Expr.reads_listLayout (Expr.reads_layouts args hargs)
    rw [Expr.layout, funext (Expr.read_eq n)]
    exact reads_withFields_layout rfl
      (fun k => .given (hcallee k) (by simp) <| .given (hargs k) (by simp) <|
        .given (mode.reads_layout k) (by simp) .nil) rfl
  | .member object property, h, n => by
    have hobject := object.reads_layout h
    rw [Expr.layout, funext (Expr.read_eq n)]
    exact reads_withFields_layout rfl
      (fun k => .given (hobject k) (by simp) <|
        .given (reads_text_layout property k) (by simp) .nil) rfl
  | .closure params body isAsync, h, n => by
    have hbody := Stmt.reads_listLayout (Stmt.reads_layouts body h)
    rw [Expr.layout, funext (Expr.read_eq n)]
    exact reads_withFields_layout rfl
      (fun k => .given (reads_names_layout params k) (by simp) <| .given (hbody k) (by simp) <|
        .given (reads_flag_layout isAsync k) (by simp) .nil) rfl

/-- Each of the expressions of a list is read from all its spellings. -/
theorem Expr.reads_layouts :
    ∀ (es : List Expr), (∀ x ∈ Expr.listFloats es, x.isFinite = true ∧ x.ReadsBack) →
      ∀ e ∈ es, ∀ n, Layout.Reads n (Expr.read n) e e.layout
  | [], _ => List.forall_mem_nil _
  | first :: es, h => by
    obtain ⟨hfirst, hrest⟩ := List.forall_mem_append.mp h
    exact List.forall_mem_cons.mpr ⟨first.reads_layout hfirst, Expr.reads_layouts es hrest⟩

/-- A statement is read from all its spellings. -/
theorem Stmt.reads_layout :
    ∀ (s : Stmt), (∀ x ∈ s.floats, x.isFinite = true ∧ x.ReadsBack) →
      ∀ n, Layout.Reads n (Stmt.read n) s s.layout
  | .cond test body none, h, n => by
    obtain ⟨htest, hbody⟩ := List.forall_mem_append.mp h
    have htest := test.reads_layout htest
    have hbody := Stmt.reads_listLayout (Stmt.reads_layouts body hbody)
    rw [Stmt.layout]
    exact Stmt.reads_of_choice trivial <| reads_withFields_layout rfl
      (fun k => .given (htest k) (by simp) <| .given (hbody k) (by simp) <|
        .absent (by simp) .nil) rfl
  | .cond test body (some orElse), h, n => by
    obtain ⟨htest, hrest⟩ := List.forall_mem_append.mp h
    obtain ⟨hbody, horElse⟩ := List.forall_mem_append.mp hrest
    have htest := test.reads_layout htest
    have hbody := Stmt.reads_listLayout (Stmt.reads_layouts body hbody)
    have horElse := Stmt.reads_listLayout (Stmt.reads_layouts orElse horElse)
    rw [Stmt.layout]
    exact Stmt.reads_of_choice trivial <| reads_withFields_layout rfl
      (fun k => .given (htest k) (by simp) <| .given (hbody k) (by simp) <|
        .given ((horElse k).some trivial) (by simp) .nil) rfl
  | .forLoop init test update body, h, n => by
    obtain ⟨hinit, hrest⟩ := List.forall_mem_append.mp h
    obtain ⟨htest, hrest⟩ := List.forall_mem_append.mp hrest
    obtain ⟨hupdate, hbody⟩ := List.forall_mem_append.mp hrest
    have hinit := init.reads_layout hinit
    have htest := test.reads_layout htest
    have hupdate := update.reads_layout hupdate
    have hbody := Stmt.reads_listLayout (Stmt.reads_layouts body hbody)
    rw [Stmt.layout]
    exact Stmt.reads_of_choice trivial <| reads_withFields_layout rfl
      (fun k => .given (hinit k) (by simp) <| .given (htest k) (by simp) <|
        .given (hupdate k) (by simp) <| .given (hbody k) (by simp) .nil) rfl
  | .whileLoop test body, h, n => by
    obtain ⟨htest, hbody⟩ := List.forall_mem_append.mp h
    have htest := test.reads_layout htest
    have hbody := Stmt.reads_listLayout (Stmt.reads_layouts body hbody)
    rw [Stmt.layout]
    exact Stmt.reads_of_choice trivial <| reads_withFields_layout rfl
      (fun k => .given (htest k) (by simp) <| .given (hbody k) (by simp) .nil) rfl
  | .doWhile body test, h, n => by
    obtain ⟨hbody, htest⟩ := List.forall_mem_append.mp h
    have hbody := Stmt.reads_listLayout (Stmt.reads_layouts body hbody)
    have htest := test.reads_layout htest
    rw [Stmt.layout]
    exact Stmt.reads_of_choice trivial <| reads_withFields_layout rfl
      (fun k => .given (hbody k) (by simp) <| .given (htest k) (by simp) .nil) rfl
  | .switch subject cases, h, n => by
    obtain ⟨hsubject, hcases⟩ := List.forall_mem_append.mp h
    have hsubject := subject.reads_layout hsubject
    have hcases := Stmt.reads_listLayout (Stmt.reads_layouts cases hcases)
    rw [Stmt.layout]
    exact Stmt.reads_of_choice trivial <| reads_withFields_layout rfl
      (fun k => .given (hsubject k) (by simp) <| .given (hcases k) (by simp) .nil) rfl
  | .case none body, h, n => by
    have hbody := Stmt.reads_listLayout (Stmt.reads_layouts body h)
    rw [Stmt.layout]
    exact Stmt.reads_of_choice trivial <| reads_withFields_layout rfl
      (fun k => .absent (by simp) <| .given (hbody k) (by simp) .nil) rfl
  | .case (some test) body, h, n => by
    obtain ⟨htest, hbody⟩ := List.forall_mem_append.mp h
    have htest := test.reads_layout htest
    have hbody := Stmt.reads_listLayout (Stmt.reads_layouts body hbody)
    rw [Stmt.layout]
    exact Stmt.reads_of_choice trivial <| reads_withFields_layout rfl
      (fun k => .given ((htest k).some test.isContainer_layout) (by simp) <|
        .given (hbody k) (by simp) .nil) rfl
  | .brk, _, n => by
    rw [Stmt.layout]
    cases n with
    | zero =>
      rw [Stmt.read_zero]
      exact .unit rfl
    | succ n =>
      rw [Stmt.read_succ]
      exact .unit rfl
  | .bind name init, h, n => by
    have hinit := init.reads_layout h
    rw [Stmt.layout]
    exact Stmt.reads_of_choice trivial <| reads_withFields_layout rfl
      (fun k => .given (reads_text_layout name k) (by simp) <| .given (hinit k) (by simp) .nil) rfl
  | .assign target value, h, n => by
    obtain ⟨htarget, hvalue⟩ := List.forall_mem_append.mp h
    have htarget := target.reads_layout htarget
    have hvalue := value.reads_layout hvalue
    rw [Stmt.layout]
    exact Stmt.reads_of_choice trivial <| reads_withFields_layout rfl
      (fun k => .given (htarget k) (by simp) <| .given (hvalue k) (by simp) .nil) rfl
  | .expr e, h, n => by
    rw [Stmt.layout]
    exact Stmt.reads_of_choice trivial <|
      .tagged rfl ((e.reads_layout h (n - 1)).map Stmt.expr)
  | .ret e, h, n => by
    rw [Stmt.layout]
    exact Stmt.reads_of_choice trivial <|
      .tagged rfl ((e.reads_layout h (n - 1)).map Stmt.ret)

/-- Each of the statements of a list is read from all its spellings. -/
theorem Stmt.reads_layouts :
    ∀ (ss : List Stmt), (∀ x ∈ Stmt.listFloats ss, x.isFinite = true ∧ x.ReadsBack) →
      ∀ s ∈ ss, ∀ n, Layout.Reads n (Stmt.read n) s s.layout
  | [], _ => List.forall_mem_nil _
  | first :: ss, h => by
    obtain ⟨hfirst, hrest⟩ := List.forall_mem_append.mp h
    exact List.forall_mem_cons.mpr ⟨first.reads_layout hfirst, Stmt.reads_layouts ss hrest⟩

end

/-! ## Section 3: Programs -/

theorem Program.reads_layout (p : Program)
    (h : ∀ x ∈ p.floats, x.isFinite = true ∧ x.ReadsBack) (n : Nat) :
    Layout.Reads n (Program.read n) p p.layout := by
  have hbody := Stmt.reads_listLayout (Stmt.reads_layouts p.body h)
  cases n with
  | zero =>
    intro form hform hroom
    have hpos := hform.height_pos trivial
    omega
  | succ n =>
    have hfields : Layout.Matches n (Program.fields n) _ (p.body, ()) :=
      .given (hbody n) (by simp) .nil
    exact (Layout.Reads.record hfields).map fun fields => Program.mk fields.1

/-- **All spellings of a program read alike**: a program whose doubles are
    finite is read from every text that spells it, its own text among them, if
    the text nests at most 127 containers. -/
theorem Program.ofText_of_spelledBy (p : Program) (hfinite : ∀ x ∈ p.floats, x.isFinite = true)
    (hback : ∀ x ∈ p.floats, x.ReadsBack) :
    p.SpelledBy p.toText ∧
      ∀ text, p.SpelledBy text → Json.nesting text ≤ 127 → Program.ofText text = .ok p := by
  refine ⟨p.spelledBy_toText, ?_⟩
  rintro text ⟨form, hform, hspaced⟩ hnesting
  have hdocument := Json.ofText_of_spaced hspaced
  -- The readers count the containers that they open, which are no more than
  -- the text nests.
  have hheight : form.node.height ≤ Json.maxDepth := by
    have hbound := Json.Document.height_ofText_le text
    rw [hdocument] at hbound
    exact hbound.trans hnesting
  have hread := p.reads_layout (fun x hx => ⟨hfinite x hx, hback x hx⟩) Json.maxDepth form hform
    hheight
  rw [Program.ofText, Json.readText, hdocument, Json.Document.read, hread]
  rfl

theorem Program.ofText_of_spelledBy_mixed :
    let p : Program := ⟨[.brk, .case none [.bind "♪" (.literal (.float ⟨0x4004000000000000⟩))],
      .expr (.unary .not (.ident "a"))]⟩
    let text := " \x7b \"note\" : 1E400 , \"body\" : [ \x7b \"Break\" : null \x7d ," ++
      " \x7b \"Case\" : \x7b \"consequent\" : [ \x7b \"Let\" : [ \"♪\" , \x7b \"Literal\" :" ++
      " \x7b \"Float\" : 2.5 \x7d \x7d ] \x7d ] \x7d \x7d , \x7b \"Expr\" : \x7b \"Unary\" :" ++
      " \x7b \"arg\" : \x7b \"Ident\" : \"a\" \x7d , \"op\" : \x7b \"Not\" : null \x7d \x7d" ++
      " \x7d \x7d ] \x7d"
    p.SpelledBy text ∧ Program.ofText text = .ok p := by
  -- A record as a list, fields out of order, one left out and one unknown, and
  -- variants with `null`.
  intro p text
  have hfloats : p.floats = [⟨0x4004000000000000⟩] := rfl
  have hfinite : ∀ x ∈ p.floats, x.isFinite = true := by
    rw [hfloats]
    decide
  have hback : ∀ x ∈ p.floats, x.ReadsBack := by
    rw [hfloats, List.forall_mem_singleton]
    exact Double.readsBack_of_toOption (by decide +kernel)
  have hbind : Layout.Spelled
      (Stmt.layout (.bind "♪" (.literal (.float ⟨0x4004000000000000⟩)))) _ :=
    .tagged (.fieldList (.given (.plain _) (.given (.tagged (.tagged (.plain _))) .nil)))
  have hcase : Layout.Spelled
      (Stmt.layout (.case none [.bind "♪" (.literal (.float ⟨0x4004000000000000⟩))])) _ :=
    .tagged (.fieldObject (.leftOut (.given (.list (.cons hbind .nil)) .nil))
      (List.forall_mem_nil _) (.refl _))
  have hunary : Layout.Spelled (Stmt.layout (.expr (.unary .not (.ident "a")))) _ :=
    .tagged (.tagged (.fieldObject (.given (.noContent _) (.given (.tagged (.plain _)) .nil))
      (List.forall_mem_nil _) (.swap _ _ _)))
  let huge : Json.Scalar := ⟨"1E400".toList, .number (.parts false
    (.digits (by decide) (by decide) (List.forall_mem_nil _)) .none
    (show Json.IsExponent ('E' :: [] ++ ['4', '0', '0']) from
      .digits (.inr rfl) (by decide) (by decide) (List.all_eq_true.mp rfl)))⟩
  have hunknown : ∀ member ∈ [(Json.Literal.of "note", Json.Form.scalar huge)],
      Layout.Unknown [("body", some (.list (Stmt.listLayout p.body)))] member :=
    List.forall_mem_singleton.mpr ⟨"note", huge, Json.Literal.reread_of _, by simp, rfl⟩
  have hprogram : p.layout.Spelled _ :=
    .fieldObject (.given (.list (.cons (.noContent _) (.cons hcase (.cons hunary .nil)))) .nil)
      hunknown (.swap _ _ _)
  have hblank : ∀ c ∈ [' '], Json.IsBlank c := List.forall_mem_singleton.mpr (.inl rfl)
  have hspelled : p.SpelledBy text := by
    refine ⟨_, hprogram, Json.spaced_of_eq_flatMap hblank ?_⟩
    -- Short literals are decoded one by one.
    simp only [text, String.toList_append]
    decide +kernel
  have hnesting : Json.nesting text ≤ 127 := by
    simp only [text, Json.nesting, String.toList_append]
    decide +kernel
  exact ⟨hspelled, (Program.ofText_of_spelledBy p hfinite hback).2 text hspelled hnesting⟩

end BlockFlow
