import BlockFlow.Proofs.Lowering.Reached

/-! # Order and nesting

    A compiled flow has the order and the nesting of its source. Both sides
    are made into *skeletons*: trees of labels in which a node has two rows of
    children, the second one only for a conditional with an alternative.

    - On the side of the flow, the children of a block are the blocks of the
      inner flows that are compiled (`Head.inner`).
    - On the side of the program, the children of a statement are the
      statements of its bodies, and for a call those of the closure that it
      passes last. What lowering puts in by itself is taken out again: the
      `break` behind a case, the `return` behind a callback, and the start
      and the update of a counted loop. Where such a statement is missing
      there is no skeleton.
    - **Main statement** (`skeletons?_of_toStmts`): the two are the same. -/

namespace BlockFlow

/-! ## Section 1: Skeletons -/

/-- The kinds of statements. -/
inductive Label where
  /-- A conditional without an alternative. -/
  | cond
  /-- A conditional with an alternative. -/
  | condElse
  /-- A loop with a counter. -/
  | forLoop
  /-- A loop that tests first. -/
  | whileLoop
  /-- A loop that tests last. -/
  | doWhile
  /-- A selection. -/
  | switch
  /-- A case with a test. -/
  | case
  /-- A case without a test. -/
  | defaultCase
  /-- Leaves a loop or selection. -/
  | brk
  /-- Declares a variable. -/
  | bind
  /-- Assigns. -/
  | assign
  /-- Evaluates an expression. -/
  | expr
  /-- Returns from a closure. -/
  | ret
deriving DecidableEq, Repr

/-- A tree of labels, with two ordered rows of children. -/
inductive Skeleton where
  /-- A label, the children, and those of the alternative. -/
  | node (label : Label) (body orElse : List Skeleton)

namespace Skeleton

/-- A label without children. -/
def leaf (label : Label) : Skeleton := .node label [] []

/-- Whether a tree is nothing but a given label. -/
def isLeaf (label : Label) : Skeleton → Bool
  | .node l [] [] => l == label
  | _ => false

/-- Takes a given label from the end of a row, if it stands there. -/
def withoutEnd? (label : Label) (trees : List Skeleton) : Option (List Skeleton) :=
  if trees.getLast?.any (isLeaf label) then some trees.dropLast else none

theorem withoutEnd?_append_leaf (label : Label) (trees : List Skeleton) :
    withoutEnd? label (trees ++ [leaf label]) = some trees := by
  simp [withoutEnd?, leaf, isLeaf]

end Skeleton

/-! ## Section 2: Skeletons of flows -/

/-- The labels of the control opcodes. -/
def controlLabels : Entries Label :=
  [("if", .cond), ("ifthenelse", .condElse), ("repeat", .forLoop), ("while", .whileLoop),
   ("forever", .whileLoop), ("until", .doWhile), ("break", .brk), ("switch", .switch),
   ("case", .case), ("defaultcase", .defaultCase), ("increment", .assign),
   ("incrementOne", .assign), ("decrementOne", .assign)]

/-- The label of a block with a given head. A block that is neither a control
    block nor a setter calls something. -/
def Head.label (settings : Settings) : Head → Label
  | .store _ => .bind
  | .perform _ => .expr
  | .op opcode =>
    match Entries.get? controlLabels opcode with
    | some label => label
    | none => if (settings.tables.setter? opcode).isSome then .assign else .expr

mutual

/-- The skeleton of a block. -/
def Block.skeleton (settings : Settings) : Block → Skeleton
  | ⟨head, _, body, orElse⟩ =>
    match head.inner settings with
    | .nothing => .leaf (head.label settings)
    | .body => .node (head.label settings) (Flow.innerSkeletons settings body) []
    | .bodyThenElse =>
      .node (head.label settings) (Flow.innerSkeletons settings body)
        (Flow.innerSkeletons settings orElse)

/-- The skeletons of a flow that may be missing. -/
def Flow.innerSkeletons (settings : Settings) : Option (List Block) → List Skeleton
  | none => []
  | some flow => Flow.skeletons settings flow

/-- The skeletons of a flow. -/
def Flow.skeletons (settings : Settings) : List Block → List Skeleton
  | [] => []
  | block :: blocks => block.skeleton settings :: Flow.skeletons settings blocks

end

/-! ## Section 3: Skeletons of statements -/

mutual

/-- The skeleton of a statement without what lowering adds. -/
def Stmt.skeleton? : Stmt → Option Skeleton
  | .cond _ body none => do
    let body ← Stmt.skeletons? body
    return .node .cond body []
  | .cond _ body (some orElse) => do
    let body ← Stmt.skeletons? body
    let orElse ← Stmt.skeletons? orElse
    return .node .condElse body orElse
  | .forLoop _ _ _ body => do
    let body ← Stmt.skeletons? body
    return .node .forLoop body []
  | .whileLoop _ body => do
    let body ← Stmt.skeletons? body
    return .node .whileLoop body []
  | .doWhile body _ => do
    let body ← Stmt.skeletons? body
    return .node .doWhile body []
  | .switch _ cases => do
    let cases ← Stmt.skeletons? cases
    return .node .switch cases []
  | .case none body => do
    let body ← Stmt.skeletons? body
    return .node .defaultCase body []
  -- Only a case with a test ends in a statement of its own.
  | .case (some _) body => do
    let body ← Stmt.skeletons? body
    let body ← Skeleton.withoutEnd? .brk body
    return .node .case body []
  | .brk => some (.leaf .brk)
  | .bind _ _ => some (.leaf .bind)
  | .assign _ _ => some (.leaf .assign)
  | .expr (.call _ args _) => do
    let body ← Expr.callbackSkeletons? args
    return .node .expr body []
  | .expr _ => some (.leaf .expr)
  | .ret _ => some (.leaf .ret)

/-- The skeletons in the closure that stands last among arguments; none if
    there is no closure. -/
def Expr.callbackSkeletons? : List Expr → Option (List Skeleton)
  | [] => some []
  | [.closure _ body _] => do
    let body ← Stmt.skeletons? body
    Skeleton.withoutEnd? .ret body
  | _ :: args => Expr.callbackSkeletons? args

/-- The skeletons of statements. -/
def Stmt.skeletons? : List Stmt → Option (List Skeleton)
  | [] => some []
  | stmt :: stmts => do
    let first ← stmt.skeleton?
    let rest ← Stmt.skeletons? stmts
    return first :: rest

end

/-! ## Section 4: Labels by role -/

/-- The label of a construct. -/
def Construct.label : Construct → Label
  | .ifThen => .cond
  | .ifThenElse => .condElse
  | .repeatTimes => .forLoop
  | .whileTest | .forever => .whileLoop
  | .untilTest => .doWhile
  | .leave => .brk
  | .switch => .switch
  | .case => .case
  | .defaultCase => .defaultCase
  | .increment | .incrementOne | .decrementOne => .assign

/-- The label of a block of a given role. -/
def Role.label : Role → Label
  | .construct c => c.label
  | .setter _ => .assign
  | _ => .expr

theorem get?_controlLabels_eq_none {opcode : String} (h : opcode ∉ controlOpcodes) :
    Entries.get? controlLabels opcode = none :=
  Entries.get?_eq_none_iff.mpr h

theorem Head.label_of_hasRole {settings : Settings} {opcode : String} {role : Role}
    (hrole : settings.HasRole opcode role) : (Head.op opcode).label settings = role.label := by
  cases hrole with
  | construct c => cases c <;> rfl
  | setter hcontrol hsetter =>
    simp [Head.label, get?_controlLabels_eq_none hcontrol, hsetter, Role.label]
  | method hcontrol hsetter hmethod =>
    simp [Head.label, get?_controlLabels_eq_none hcontrol, hsetter, Role.label]
  | print hsetter hmethod =>
    have hcontrol : "print" ∉ controlOpcodes := by decide
    simp [Head.label, get?_controlLabels_eq_none hcontrol, hsetter, Role.label]
  | unknown hcontrol hsetter hmethod hprint =>
    simp [Head.label, get?_controlLabels_eq_none hcontrol, hsetter, Role.label]

/-- The skeleton of a block by its role. -/
theorem Block.skeleton_of_hasRole {settings : Settings} {opcode : String} {role : Role}
    (hrole : settings.HasRole opcode role) (args : List Arg) (body orElse : Option Flow) :
    Block.skeleton settings ⟨.op opcode, args, body, orElse⟩ =
      match role.inner with
      | .nothing => .leaf role.label
      | .body => .node role.label (Flow.innerSkeletons settings body) []
      | .bodyThenElse =>
        .node role.label (Flow.innerSkeletons settings body)
          (Flow.innerSkeletons settings orElse) := by
  rw [Block.skeleton, Head.inner_of_hasRole hrole, Head.label_of_hasRole hrole]

/-! ## Section 5: Arguments and callbacks -/

/-- Whether an expression is a closure. -/
def Expr.isClosure : Expr → Bool
  | .closure _ _ _ => true
  | _ => false

theorem Operator.applyTo_isClosure (operator : Operator) (operands : List Expr) :
    (operator.applyTo operands).isClosure = false := by
  cases operator <;> rfl

theorem Arg.toExpr_isClosure (settings : Settings) (arg : Arg) :
    (arg.toExpr settings).isClosure = false := by
  cases arg with
  | null => rfl
  | literal v => rfl
  | box name => rfl
  | apply opcode args =>
    rw [Arg.toExpr, Settings.applyOpcode]
    cases settings.tables.getter? opcode with
    | some name => rfl
    | none =>
      cases Operator.ofOpcode? opcode with
      | some operator => exact operator.applyTo_isClosure _
      | none => rfl

theorem Arg.toExprs_isClosure (settings : Settings) (args : List Arg) :
    ∀ e ∈ Arg.toExprs settings args, e.isClosure = false := by
  induction args with
  | nil => simp [Arg.toExprs]
  | cons arg args ih =>
    intro e he
    rw [Arg.toExprs] at he
    rcases List.mem_cons.mp he with rfl | he
    · exact arg.toExpr_isClosure settings
    · exact ih e he

/-- A call without closures has no children. -/
theorem Expr.callbackSkeletons?_eq_nil {args : List Expr}
    (h : ∀ arg ∈ args, arg.isClosure = false) : Expr.callbackSkeletons? args = some [] := by
  induction args with
  | nil => rfl
  | cons first args ih =>
    have hrest := ih fun arg harg => h arg (List.mem_cons_of_mem _ harg)
    have hfirst := h first List.mem_cons_self
    cases args with
    | nil => cases first <;> simp_all [Expr.callbackSkeletons?, Expr.isClosure]
    | cons second args => simpa [Expr.callbackSkeletons?] using hrest

/-- The children of a call are those of the closure that stands last. -/
theorem Expr.callbackSkeletons?_append_closure (args : List Expr) (params : List String)
    (body : List Stmt) (isAsync : Bool) :
    Expr.callbackSkeletons? (args ++ [.closure params body isAsync]) =
      (Stmt.skeletons? body).bind (Skeleton.withoutEnd? .ret) := by
  induction args with
  | nil =>
    rw [List.nil_append, Expr.callbackSkeletons?]
    rfl
  | cons first args ih =>
    -- The first argument is passed over, since it is never the last.
    obtain ⟨second, rest, happ⟩ : ∃ second rest,
        args ++ [Expr.closure params body isAsync] = second :: rest :=
      List.exists_cons_of_ne_nil (by simp)
    rw [← ih, List.cons_append, happ]
    simp [Expr.callbackSkeletons?]

theorem Stmt.skeletons?_append_singleton (stmts : List Stmt) (last : Stmt) :
    Stmt.skeletons? (stmts ++ [last]) =
      (Stmt.skeletons? stmts).bind fun trees => last.skeleton?.map fun tree => trees ++ [tree] := by
  induction stmts with
  | nil => cases h : last.skeleton? <;> simp [Stmt.skeletons?, h]
  | cons stmt stmts ih =>
    cases hstmt : stmt.skeleton? <;> cases hstmts : Stmt.skeletons? stmts <;>
      cases hlast : last.skeleton? <;> simp_all [Stmt.skeletons?]

/-! ## Section 6: Lowering keeps the skeleton -/

section keeps

variable {settings : Settings} {depth : Depth}

/-- The skeletons of statements are those of a flow. -/
def SameSkeletons (settings : Settings) (_depth : Depth) (flow : Flow) (stmts : List Stmt) : Prop :=
  Stmt.skeletons? stmts = some (Flow.skeletons settings flow)

theorem InnerFlow.skeletons? {flow : Option Flow} {stmts : List Stmt}
    (h : InnerFlow (SameSkeletons settings) depth flow stmts) :
    Stmt.skeletons? stmts = some (Flow.innerSkeletons settings flow) := by
  cases flow with
  | none =>
    rw [show stmts = [] from h]
    rfl
  | some flow => exact h

/-- One step of lowering keeps the skeleton. -/
theorem Lowered.skeleton? {block : Block} {stmt : Stmt}
    (h : Lowered settings (InnerFlow (SameSkeletons settings)) depth block stmt) :
    stmt.skeleton? = some (block.skeleton settings) := by
  cases h with
  | store => rfl
  | perform => rfl
  | ifThen hbody =>
    rw [Stmt.skeleton?, hbody.skeletons?]
    rfl
  | ifThenElse hbody helse =>
    rw [Stmt.skeleton?, hbody.skeletons?, helse.skeletons?]
    rfl
  | repeatTimes hbody =>
    rw [Settings.countedLoop, Stmt.skeleton?, hbody.skeletons?]
    rfl
  | whileTest hbody =>
    rw [Stmt.skeleton?, hbody.skeletons?]
    rfl
  | forever hbody =>
    rw [Stmt.skeleton?, hbody.skeletons?]
    rfl
  | untilTest hbody =>
    rw [Stmt.skeleton?, hbody.skeletons?]
    rfl
  | leave => rfl
  | switch hbody =>
    rw [Stmt.skeleton?, hbody.skeletons?]
    rfl
  | case hbody =>
    -- The break that was put at the end is dropped again.
    have hend := Skeleton.withoutEnd?_append_leaf .brk
    simp only [Stmt.skeleton?, Stmt.skeletons?_append_singleton, hbody.skeletons?, Option.bind_some,
      Option.map_some, Option.bind_eq_bind, hend]
    rfl
  | defaultCase hbody =>
    rw [Stmt.skeleton?, hbody.skeletons?]
    rfl
  | increment htarget => rfl
  | incrementOne htarget => rfl
  | decrementOne htarget => rfl
  | setter hrole =>
    rw [Block.skeleton_of_hasRole hrole]
    rfl
  | method hrole =>
    rw [Block.skeleton_of_hasRole hrole, Settings.awaitMethod, Stmt.skeleton?,
      Expr.callbackSkeletons?_eq_nil (Arg.toExprs_isClosure settings _)]
    rfl
  | clamp hrole hbody =>
    -- The children stand in the callback, in front of its end marker.
    have hend := Skeleton.withoutEnd?_append_leaf .ret
    rw [Block.skeleton_of_hasRole hrole, Settings.awaitMethod, Stmt.skeleton?, Settings.callback,
      Expr.callbackSkeletons?_append_closure]
    simp only [Settings.endMarker, Stmt.skeletons?_append_singleton, hbody.skeletons?,
      Stmt.skeleton?, Option.bind_some, Option.map_some, hend]
    rfl
  | print hrole =>
    rw [Block.skeleton_of_hasRole hrole, Settings.printCall, Stmt.skeleton?,
      Expr.callbackSkeletons?_eq_nil (Arg.toExprs_isClosure settings _)]
    rfl

theorem loweringKeeps_skeletons :
    LoweringKeeps settings (fun _ block stmt => stmt.skeleton? = some (block.skeleton settings))
      (SameSkeletons settings) where
  block h := h.skeleton?
  nil := rfl
  cons hblock hblocks := by
    rw [SameSkeletons, Stmt.skeletons?, hblock, hblocks]
    rfl

end keeps

/-- **Order and structure are kept at every level.** The skeletons of a
    compiled flow, without what lowering adds, are those of the flow. -/
theorem Flow.skeletons?_of_toStmts {settings : Settings} {depth : Depth} {flow : Flow}
    {stmts : List Stmt} (h : Flow.toStmts settings depth flow = .ok stmts) :
    Stmt.skeletons? stmts = some (Flow.skeletons settings flow) :=
  Flow.toStmts_induction loweringKeeps_skeletons flow h

/-- A clamp and a case inside a counted loop. -/
theorem Flow.skeletons?_of_toStmts_clamp_in_loop :
    let settings : Settings :=
      ⟨{ methods := [("setbeat", "beat.set")], clamps := ["setbeat"] }, {}⟩
    let flow : Flow :=
      [⟨.op "repeat", [.literal (.integer 3)],
        some [⟨.op "setbeat", [.box "x"], some [⟨.op "break", [], none, none⟩], none⟩,
          ⟨.op "case", [], some [⟨.store "y", [.null], none, none⟩], none⟩], none⟩]
    ∃ stmts, Flow.toStmts settings 2 flow = .ok stmts ∧
      Stmt.skeletons? stmts =
        some [.node .forLoop [.node .expr [.leaf .brk] [], .node .case [.leaf .bind] []] []] := by
  intro settings flow
  have hok : Flow.toStmts settings 2 flow = .ok _ := rfl
  exact ⟨_, hok, Flow.skeletons?_of_toStmts hok⟩

end BlockFlow
