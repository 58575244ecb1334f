import BlockFlow.Proofs.Lowering.Emitted
import BlockFlow.Proofs.Program.Unambiguous

/-! # No two signs side by side

    An operand behind a sign is put between parentheses if it begins with a
    sign itself. Whether it does is told from its root alone, though its text
    may begin with something from deep inside: the callee of a call, or the
    object that has a property. This is enough for what arguments become,
    since only names stand there.

    - `Margins` are the texts before and behind a part, and
      `Trail.margins` gives them for every node that a trail leads to.
    - `Expr.IsValue.put_margins`: between its margins, every node of a value
      has its own text.
    - `Expr.IsValue.isSigned_render`: the text of a value begins with a sign
      only if its root tells so.
    - **Main statement** (`Arg.signsApart_toExpr`): in the expression of
      an argument, no sign follows the sign of an operator, at any depth. An
      operand may have no text at all, as a box without a name. What follows
      then comes from further outside, and is no sign either. -/

namespace BlockFlow

/-! ## Section 1: Texts that begin with a sign -/

namespace Text

/-- Whether a text begins with the sign of an operator that stands before its
    operand. -/
def isSigned (text : String) : Bool := text.toList.head?.any fun c => c == '-' || c == '!'

theorem isSigned_empty : isSigned "" = false := by decide

theorem isSigned_open (text : String) : isSigned ("(" ++ text) = false := by
  simp [isSigned]

theorem isSigned_append {s t : String} (hs : isSigned s = false) (ht : isSigned t = false) :
    isSigned (s ++ t) = false := by
  rw [isSigned, String.toList_append]
  rw [isSigned] at hs
  cases hchars : s.toList with
  | nil => exact ht
  | cons c cs =>
    rw [hchars] at hs
    exact hs

theorem isSigned_of_head {text : String} {c : Char} {cs : List Char} (htext : text.toList = c :: cs)
    (hc : (c == '-' || c == '!') = false) : isSigned text = false := by
  rw [isSigned, htext]
  exact hc

/-- Digits are no signs. -/
theorem isSigned_of_isDigit {text : String} (h : text.toList.head?.any Char.isDigit = true) :
    isSigned text = false := by
  cases hchars : text.toList with
  | nil =>
    rw [hchars] at h
    cases h
  | cons c cs =>
    rw [hchars] at h
    have hdigit : c.isDigit = true := h
    refine isSigned_of_head hchars ?_
    rw [Bool.or_eq_false_iff, beq_eq_false_iff_ne, beq_eq_false_iff_ne]
    constructor
    · rintro rfl
      cases hdigit
    · rintro rfl
      cases hdigit

end Text

/-! ## Section 2: Margins -/

/-- What is written around something. -/
structure Margins where
  /-- The text before it. -/
  before : String
  /-- The text behind it. -/
  behind : String

namespace Margins

/-- A text between margins. -/
def put (m : Margins) (text : String) : String := m.before ++ text ++ m.behind

/-- Margins inside of others. -/
def inside (inner outer : Margins) : Margins :=
  ⟨outer.before ++ inner.before, inner.behind ++ outer.behind⟩

theorem put_inside (inner outer : Margins) (text : String) :
    (inner.inside outer).put text = outer.put (inner.put text) := by
  simp [put, inside, String.append_assoc]

end Margins

/-- What an expression writes around the part in a slot. -/
def Expr.margins : Expr → Slot → Margins
  | .binary op _ right, .left => ⟨"(", " " ++ op.symbol ++ " " ++ right.render ++ ")"⟩
  | .binary op left _, .right => ⟨"(" ++ left.render ++ " " ++ op.symbol ++ " ", ")"⟩
  | .unary op arg, .operand =>
    if arg.leadsWithSign then ⟨op.symbol ++ "(", ")"⟩ else ⟨op.symbol, ""⟩
  | .call _ args mode, .callee => ⟨mode.lead, "(" ++ commaSeparated (renderList args) ++ ")"⟩
  | .call callee args mode, .arg i =>
    ⟨mode.lead ++ callee.render ++ "(" ++ String.join (((renderList args).take i).map (· ++ ", ")),
      String.join (((renderList args).drop (i + 1)).map (", " ++ ·)) ++ ")"⟩
  | .member _ property, .object => ⟨"", "." ++ property⟩
  | _, _ => ⟨"", ""⟩

/-- What a node writes around the part in a slot; the parts of statements are
    not looked at. -/
def Node.margins : Node → Slot → Margins
  | .expr e, slot => e.margins slot
  | .program _, _ | .stmt _, _ => ⟨"", ""⟩

/-- What is written around the foot of a trail, by all nodes above it. -/
def Trail.margins (root : Node) : Trail → Margins
  | [] => ⟨"", ""⟩
  | (slot, _) :: above => ((Trail.foot root above).margins slot).inside (Trail.margins root above)

theorem commaSeparated_cons (text : String) (texts : List String) :
    commaSeparated (text :: texts) = text ++ String.join (texts.map (", " ++ ·)) := by
  induction texts generalizing text with
  | nil => simp [commaSeparated]
  | cons next texts ih =>
    have hrest : String.intercalate ", " (next :: texts) = _ := ih next
    rw [commaSeparated, String.intercalate_cons_cons, hrest]
    simp [String.append_assoc]

/-- A text in a row has commas before and behind it, but for the ends. -/
theorem commaSeparated_eq_of_getElem? {texts : List String} {i : Nat} {text : String}
    (h : texts[i]? = some text) :
    commaSeparated texts = String.join ((texts.take i).map (· ++ ", ")) ++ text ++
      String.join ((texts.drop (i + 1)).map (", " ++ ·)) := by
  induction texts generalizing i with
  | nil => cases h
  | cons first texts ih =>
    cases i with
    | zero =>
      cases h
      rw [commaSeparated_cons]
      simp
    | succ i =>
      have hne : texts ≠ [] := by
        rintro rfl
        cases h
      have hrest : commaSeparated texts = _ := ih h
      rw [commaSeparated, String.intercalate_cons_of_ne_nil hne, ← commaSeparated, hrest]
      simp [String.append_assoc]

theorem Expr.renderList_eq_map (es : List Expr) : renderList es = es.map render := by
  induction es with
  | nil => rfl
  | cons e es ih => rw [renderList, ih, List.map_cons]

/-- **One step down**: a part, between what is written around it, is the text
    of the whole. -/
theorem Expr.put_margins {e part : Expr} {slot : Slot} (h : Part (.expr e) slot (.expr part)) :
    (e.margins slot).put part.render = e.render := by
  cases h with
  | binaryLeft => simp [margins, Margins.put, render, String.append_assoc]
  | binaryRight => simp [margins, Margins.put, render, String.append_assoc]
  | unaryOperand =>
    rw [margins, render]
    split <;> simp [Margins.put, String.append_assoc]
  | callCallee => simp [margins, Margins.put, render, String.append_assoc]
  | @callArg callee args mode i part harg =>
    have htext : (renderList args)[i]? = some part.render := by
      rw [renderList_eq_map, List.getElem?_map, harg]
      rfl
    rw [render, commaSeparated_eq_of_getElem? htext]
    simp [margins, Margins.put, String.append_assoc]
  | memberObject => simp [margins, Margins.put, render, String.append_assoc]

/-- Behind a part stand a blank, a comma, a parenthesis, a dot or nothing. -/
theorem Expr.isSigned_behind_margins (e : Expr) (slot : Slot) :
    Text.isSigned (e.margins slot).behind = false := by
  unfold margins
  split
  · simp [Text.isSigned]
  · simp [Text.isSigned]
  · split <;> simp [Text.isSigned]
  · simp [Text.isSigned]
  · next args _ i =>
    refine Text.isSigned_append ?_ (by decide)
    cases (renderList args).drop (i + 1) with
    | nil => decide
    | cons text texts => simp [Text.isSigned]
  · simp [Text.isSigned]
  · exact Text.isSigned_empty

theorem Trail.isSigned_behind_margins (root : Node) (t : Trail) :
    Text.isSigned (t.margins root).behind = false := by
  induction t with
  | nil => exact Text.isSigned_empty
  | cons step above ih =>
    refine Text.isSigned_append ?_ ih
    cases Trail.foot root above with
    | expr e => exact e.isSigned_behind_margins step.1
    | program p => exact Text.isSigned_empty
    | stmt s => exact Text.isSigned_empty

/-! ## Section 3: The texts of values -/

/-- The text of a literal begins with a sign only if it is a negative number. -/
theorem Value.isSigned_render {v : Value} (h : (Expr.literal v).leadsWithSign = false) :
    Text.isSigned v.render = false := by
  cases v with
  | null => rfl
  | integer n =>
    have hn : ¬ n.toInt < 0 := of_decide_eq_false h
    apply Text.isSigned_of_isDigit
    have htext : (Value.render (.integer n)).toList = _ :=
      Expr.toList_render_of_nonneg (n := n) (by omega)
    rw [htext, ← List.append_nil (Nat.toDigits _ _)]
    exact Inline.head?_toDigits _ _
  | float x =>
    have hx : x.negative = false := h
    rw [render, showFloat]
    split
    · rfl
    · split
      · rw [hx]
        rfl
      · -- Without a sign, the numeral begins with the digits of its whole part.
        apply Text.isSigned_of_isDigit
        rw [String.toList_ofList, hx, Numeral.text, List.append_assoc, List.append_assoc]
        exact Inline.head?_toDigits _ _
  | string s => exact Text.isSigned_of_head (Expr.toList_render_string s) rfl
  | bool b => cases b <;> rfl

namespace Expr

/-- A call begins with what is called. -/
theorem isSigned_render_call {callee : Expr} (h : Text.isSigned callee.render = false)
    (args : List Expr) : Text.isSigned (Expr.call callee args .plain).render = false := by
  rw [render, CallMode.lead, String.empty_append, String.append_assoc, String.append_assoc]
  exact Text.isSigned_append h (Text.isSigned_open _)

variable {settings : Settings} {e : Expr}

/-- **The root tells**: the text of a value over names without signs begins
    with a sign only if its root is a sign or a negative number. -/
theorem IsValue.isSigned_render (hcontext : Text.isSigned settings.conventions.context = false)
    (he : e.IsValue settings fun name => Text.isSigned name = false)
    (h : e.leadsWithSign = false) : Text.isSigned e.render = false := by
  cases he with
  | literal v =>
    rw [render]
    exact Value.isSigned_render h
  | ident hname =>
    rw [render]
    exact hname
  | property name =>
    rw [Settings.property, Settings.context, render, render, String.append_assoc]
    exact Text.isSigned_append hcontext (by simp [Text.isSigned])
  | binary => exact Text.isSigned_of_head (toList_render_binary _ _ _) rfl
  | unary => cases h
  | apply hopcode hargs =>
    apply isSigned_render_call
    rw [render]
    exact hopcode
  | @function path args hpath hargs =>
    have hall : ∀ path ∈ mathFunctions, Text.isSigned path = false := by decide
    apply isSigned_render_call
    rw [render_path]
    exact hall path hpath

/-- What stands directly behind the sign of an operator. -/
theorem IsValue.exists_render_unary
    (hcontext : Text.isSigned settings.conventions.context = false)
    (he : e.IsValue settings fun name => Text.isSigned name = false) (op : UnaryOp) :
    ∃ text, (Expr.unary op e).render = op.symbol ++ text ∧ Text.isSigned text = false := by
  cases hsign : e.leadsWithSign with
  | true =>
    refine ⟨"(" ++ (e.render ++ ")"), ?_, Text.isSigned_open _⟩
    rw [render, if_pos hsign, String.append_assoc, String.append_assoc]
  | false =>
    refine ⟨e.render, ?_, he.isSigned_render hcontext hsign⟩
    rw [render, hsign]
    rfl

/-- **All the way down**: a trail through a value leads to a value or to a
    dotted name, whose text stands between the margins of the trail. -/
theorem IsValue.put_margins {known : String → Prop} (hcontext : known settings.conventions.context)
    (he : e.IsValue settings known) {t : Trail} (ht : IsTrail (.expr e) t) :
    ∃ inner, t.foot (.expr e) = .expr inner ∧
      (inner.IsValue settings known ∨ inner.IsChain fun _ => True) ∧
      (t.margins (.expr e)).put inner.render = e.render := by
  induction ht with
  | nil => exact ⟨e, rfl, Or.inl he, by simp [Trail.margins, Margins.put]⟩
  | @cons slot node above habove hpart ih =>
    obtain ⟨outer, hfoot, hkind, htext⟩ := ih
    rw [hfoot] at hpart
    -- Both kinds have parts of these kinds only, so the trail meets no closure.
    obtain ⟨inner, rfl, hinner⟩ : ∃ inner, node = .expr inner ∧
        (inner.IsValue settings known ∨ inner.IsChain fun _ => True) := by
      rcases hkind with hvalue | hchain
      · obtain ⟨inner, rfl, hinner | ⟨path, -, rfl⟩⟩ := hvalue.exists_part hcontext hpart
        · exact ⟨inner, rfl, Or.inl hinner⟩
        · exact ⟨_, rfl, Or.inr (isChain_path trivial)⟩
      · obtain ⟨inner, rfl, hinner⟩ := hchain.exists_part hpart
        exact ⟨inner, rfl, Or.inr hinner⟩
    refine ⟨inner, rfl, hinner, ?_⟩
    rw [Trail.margins, hfoot, Margins.put_inside]
    show Margins.put _ ((outer.margins slot).put inner.render) = _
    rw [Expr.put_margins hpart, htext]

end Expr

/-! ## Section 4: Signs in arguments -/

/-- **Signs stand apart** in an expression: wherever a trail leads to an
    operator with one operand, no sign is written directly behind its sign. -/
def Expr.SignsApart (root : Expr) : Prop :=
  ∀ {t : Trail} {op : UnaryOp} {operand : Expr}, IsTrail (.expr root) t →
    t.foot (.expr root) = .expr (.unary op operand) →
      ∃ text, (Expr.unary op operand).render = op.symbol ++ text ∧
        Text.isSigned text = false ∧
        -- The operand may have no text. Then its margin follows the sign.
        (t.margins (.expr root)).put (op.symbol ++ text) = root.render ∧
        Text.isSigned (text ++ (t.margins (.expr root)).behind) = false

/-- **Arguments keep signs apart.** If neither the context nor any box or
    opcode of an argument begins with a sign, then no two signs stand side by
    side in its expression, at any depth and for any numbers in it. -/
theorem Arg.signsApart_toExpr {settings : Settings} {arg : Arg}
    (hnames : ∀ name ∈ settings.conventions.context :: arg.names, Text.isSigned name = false) :
    (arg.toExpr settings).SignsApart := by
  intro t op operand ht hfoot
  obtain ⟨hcontext, hnames⟩ := List.forall_mem_cons.mp hnames
  have hvalue : (arg.toExpr settings).IsValue settings fun name => Text.isSigned name = false :=
    Arg.isValue_toExpr arg hnames
  obtain ⟨inner, hinner, hkind, htext⟩ := hvalue.put_margins hcontext ht
  obtain rfl : inner = .unary op operand := Node.expr.inj (hinner.symm.trans hfoot)
  have hoperand : operand.IsValue settings fun name => Text.isSigned name = false := by
    rcases hkind with hvalue | hchain
    · cases hvalue with
      | unary h => exact h
    · cases hchain
  obtain ⟨text, hrender, hunsigned⟩ := hoperand.exists_render_unary hcontext op
  rw [hrender] at htext
  exact ⟨text, hrender, hunsigned, htext,
    Text.isSigned_append hunsigned (Trail.isSigned_behind_margins _ t)⟩

/-- Signs before a box without a name, a negative zero, a NaN with its sign bit
    set, and the least integer. -/
theorem Arg.signsApart_toExpr_numbers :
    let arg : Arg := .apply "minus" [.apply "neg" [.box ""],
      .apply "f" [.apply "neg" [.literal (.float ⟨0x8000000000000000⟩)],
        .apply "neg" [.literal (.float ⟨0xFFF8000000000000⟩)],
        .apply "not" [.apply "neg" [.literal (.integer Int64.minValue)]]]]
    (∀ name ∈ "mouse" :: arg.names, Text.isSigned name = false) ∧
      (arg.toExpr {}).render = "(- - f(-(-0), -(NaN), !(-(-9223372036854775808))))" ∧
      IsTrail (.expr (arg.toExpr {})) [(.left, .expr (.unary .neg (.ident "")))] ∧
      (arg.toExpr {}).SignsApart := by
  intro arg
  have hnames : ∀ name ∈ "mouse" :: arg.names, Text.isSigned name = false := by decide
  have hrender : (arg.toExpr {}).render =
      "(- - f(-(-0), -(NaN), !(-(-9223372036854775808))))" := by decide +kernel
  exact ⟨hnames, hrender, .cons .nil .binaryLeft, Arg.signsApart_toExpr hnames⟩

-- The condition on names is needed.
example : ((Arg.apply "neg" [.box "-x"]).toExpr {}).render = "--x" := by decide +kernel

end BlockFlow
