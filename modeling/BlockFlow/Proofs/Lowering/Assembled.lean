import BlockFlow.Lowering.Entry
import BlockFlow.Proofs.Lowering.Emitted

/-! # What stands where in a compiled program

    A program is compiled from a `Source`: an action, a mouse or a project.
    Around the compiled flows it has little of its own: declarations, calls
    that make mice, the closures that these hold, and the start.

    `Assembled` continues the list of `Emitted` with these, so that every
    trail through a compiled program is on one list
    (`Source.assembled_of_compile`). The flows in it are all compiled outside
    of counted loops. -/

namespace BlockFlow

/-! ## Section 1: Sources -/

/-- What a program can be compiled from. -/
inductive Source where
  /-- A named action. -/
  | action (name : String) (flow : Flow)
  /-- The flow of one mouse. -/
  | mouse (flow : Flow)
  /-- A project. -/
  | project (contents : Project)

namespace Source

/-- The program of a source. -/
def compile (settings : Settings) : Source → Except CompileError Program
  | .action name flow => Program.ofAction settings name flow
  | .mouse flow => Program.ofFlow settings flow
  | .project contents => Program.ofProject settings contents

/-- The flows of a source. -/
def flows : Source → List Flow
  | .action _ flow | .mouse flow => [flow]
  | .project contents => contents.actions.map Prod.snd ++ contents.mice

end Source

/-! ## Section 2: Statements of a program -/

/-- The closure around a compiled flow: it takes the context and returns a
    marker. -/
def Settings.entry (settings : Settings) (marker : String) (stmts : List Stmt) : Expr :=
  .closure [settings.conventions.context] (stmts ++ [settings.endMarker marker]) true

/-- The call that makes a mouse. -/
def Settings.makeMouse (settings : Settings) (stmts : List Stmt) : Expr :=
  .call (.path settings.conventions.entity)
    [settings.entry settings.conventions.endOfProgram stmts] .construct

/-- **Statements of a program**: actions, mice and the start. -/
inductive TopLevel (settings : Settings) (source : Source) : Stmt → Prop where
  | action {name : String} {flow : Flow} {stmts : List Stmt} (hflow : flow ∈ source.flows)
      (hstmts : Flow.toStmts settings 0 flow = .ok stmts) :
      TopLevel settings source (.bind name (settings.entry settings.conventions.endOfFlow stmts))
  | mouse {flow : Flow} {stmts : List Stmt} (hflow : flow ∈ source.flows)
      (hstmts : Flow.toStmts settings 0 flow = .ok stmts) :
      TopLevel settings source (.expr (settings.makeMouse stmts))
  | start : TopLevel settings source settings.start

section topLevel

variable {settings : Settings}

theorem Flow.toAction_eq_ok {name : String} {flow : Flow} {s : Stmt}
    (h : flow.toAction settings name = .ok s) :
    ∃ stmts, Flow.toStmts settings 0 flow = .ok stmts ∧
      s = .bind name (settings.entry settings.conventions.endOfFlow stmts) := by
  obtain ⟨closure, hclosure, rfl⟩ := exists_of_bind_return_eq_ok h
  obtain ⟨stmts, hstmts, rfl⟩ := exists_of_bind_return_eq_ok hclosure
  exact ⟨stmts, hstmts, rfl⟩

theorem Flow.toMouse_eq_ok {flow : Flow} {s : Stmt} (h : flow.toMouse settings = .ok s) :
    ∃ stmts, Flow.toStmts settings 0 flow = .ok stmts ∧ s = .expr (settings.makeMouse stmts) := by
  obtain ⟨closure, hclosure, rfl⟩ := exists_of_bind_return_eq_ok h
  obtain ⟨stmts, hstmts, rfl⟩ := exists_of_bind_return_eq_ok hclosure
  exact ⟨stmts, hstmts, rfl⟩

theorem Program.exists_flow_of_actions {entries : Entries Flow} {stmts : List Stmt}
    (h : Program.actions settings entries = .ok stmts) {s : Stmt} (hs : s ∈ stmts) :
    ∃ name flow, flow ∈ entries.map Prod.snd ∧ flow.toAction settings name = .ok s := by
  induction entries generalizing stmts with
  | nil =>
    cases h
    simp at hs
  | cons entry entries ih =>
    obtain ⟨name, flow⟩ := entry
    rw [Program.actions] at h
    obtain ⟨first, hfirst, h⟩ := exists_of_bind_eq_ok h
    obtain ⟨others, hothers, rfl⟩ := exists_of_bind_return_eq_ok h
    rcases List.mem_cons.mp hs with rfl | hs
    · exact ⟨name, flow, List.mem_cons_self, hfirst⟩
    · obtain ⟨name, flow, hflow, hstmt⟩ := ih hothers hs
      exact ⟨name, flow, List.mem_cons_of_mem _ hflow, hstmt⟩

theorem Program.exists_flow_of_mice {flows : List Flow} {stmts : List Stmt}
    (h : Program.mice settings flows = .ok stmts) {s : Stmt} (hs : s ∈ stmts) :
    ∃ flow ∈ flows, flow.toMouse settings = .ok s := by
  induction flows generalizing stmts with
  | nil =>
    cases h
    simp at hs
  | cons flow flows ih =>
    rw [Program.mice] at h
    obtain ⟨first, hfirst, h⟩ := exists_of_bind_eq_ok h
    obtain ⟨others, hothers, rfl⟩ := exists_of_bind_return_eq_ok h
    rcases List.mem_cons.mp hs with rfl | hs
    · exact ⟨flow, List.mem_cons_self, hfirst⟩
    · obtain ⟨flow, hflow, hstmt⟩ := ih hothers hs
      exact ⟨flow, List.mem_cons_of_mem _ hflow, hstmt⟩

theorem TopLevel.of_toAction {source : Source} {name : String} {flow : Flow} {s : Stmt}
    (hflow : flow ∈ source.flows) (h : flow.toAction settings name = .ok s) :
    TopLevel settings source s := by
  obtain ⟨stmts, hstmts, rfl⟩ := Flow.toAction_eq_ok h
  exact .action hflow hstmts

theorem TopLevel.of_toMouse {source : Source} {flow : Flow} {s : Stmt}
    (hflow : flow ∈ source.flows) (h : flow.toMouse settings = .ok s) :
    TopLevel settings source s := by
  obtain ⟨stmts, hstmts, rfl⟩ := Flow.toMouse_eq_ok h
  exact .mouse hflow hstmts

/-- The statements of a compiled program. -/
theorem Source.topLevel_of_compile {source : Source} {p : Program}
    (h : source.compile settings = .ok p) {s : Stmt} (hs : s ∈ p.body) :
    TopLevel settings source s := by
  cases source with
  | action name flow =>
    obtain ⟨action, haction, rfl⟩ := exists_of_bind_return_eq_ok h
    rw [List.mem_singleton.mp hs]
    exact .of_toAction List.mem_cons_self haction
  | mouse flow =>
    obtain ⟨mouse, hmouse, rfl⟩ := exists_of_bind_return_eq_ok h
    rcases List.mem_cons.mp hs with rfl | hs
    · exact .of_toMouse List.mem_cons_self hmouse
    · rw [List.mem_singleton.mp hs]
      exact .start
  | project contents =>
    obtain ⟨actions, hactions, h⟩ := exists_of_bind_eq_ok h
    obtain ⟨mice, hmice, rfl⟩ := exists_of_bind_return_eq_ok h
    rcases List.mem_append.mp hs with hs | hs
    · rcases List.mem_append.mp hs with hs | hs
      · obtain ⟨name, flow, hflow, hstmt⟩ := Program.exists_flow_of_actions hactions hs
        exact .of_toAction (List.mem_append_left _ hflow) hstmt
      · obtain ⟨flow, hflow, hstmt⟩ := Program.exists_flow_of_mice hmice hs
        exact .of_toMouse (List.mem_append_right _ hflow) hstmt
    · rw [List.mem_singleton.mp hs]
      exact .start

end topLevel

/-! ## Section 3: The list -/

/-- **What a compiled program consists of**: what can be at the end of a trail
    through the program of a source. -/
inductive Assembled (settings : Settings) (source : Source) : Trail → Prop where
  /-- A statement of the program. -/
  | top {i : Nat} {s : Stmt} (h : TopLevel settings source s) :
      Assembled settings source [(.body i, .stmt s)]
  /-- The closure of an action. -/
  | action {i : Nat} {name : String} {flow : Flow} {stmts : List Stmt}
      (hflow : flow ∈ source.flows) (hstmts : Flow.toStmts settings 0 flow = .ok stmts) :
      Assembled settings source
        [(.value, .expr (settings.entry settings.conventions.endOfFlow stmts)),
          (.body i, .stmt (.bind name (settings.entry settings.conventions.endOfFlow stmts)))]
  /-- The call that makes a mouse. -/
  | mouseCall {i : Nat} {flow : Flow} {stmts : List Stmt}
      (hflow : flow ∈ source.flows) (hstmts : Flow.toStmts settings 0 flow = .ok stmts) :
      Assembled settings source
        [(.value, .expr (settings.makeMouse stmts)),
          (.body i, .stmt (.expr (settings.makeMouse stmts)))]
  /-- The closure of a mouse. -/
  | mouse {i : Nat} {flow : Flow} {stmts : List Stmt}
      (hflow : flow ∈ source.flows) (hstmts : Flow.toStmts settings 0 flow = .ok stmts) :
      Assembled settings source
        [(.arg 0, .expr (settings.entry settings.conventions.endOfProgram stmts)),
          (.value, .expr (settings.makeMouse stmts)),
          (.body i, .stmt (.expr (settings.makeMouse stmts)))]
  /-- The end of a closure around a flow. -/
  | entryEnd {slot : Slot} {marker : String} {stmts : List Stmt} {above : Trail} :
      Assembled settings source
        ((.body stmts.length, .stmt (settings.endMarker marker)) ::
          (slot, .expr (settings.entry marker stmts)) :: above)
  /-- The call that starts the mice. -/
  | startCall {i : Nat} :
      Assembled settings source
        [(.value, .expr (.call (.path settings.conventions.runner) [] .plain)),
          (.body i, .stmt settings.start)]
  /-- A dotted name. -/
  | chain {slot : Slot} {e : Expr} {above : Trail} (he : e.IsChain fun _ => True) :
      Assembled settings source ((slot, .expr e) :: above)
  /-- A part of a compiled flow. -/
  | flow {flow : Flow} {t : Trail} (hflow : flow ∈ source.flows)
      (h : Emitted settings flow 0 t) : Assembled settings source t

section assembled

variable {settings : Settings} {source : Source}

/-- The parts of a closure around a flow, outside of counted loops. -/
theorem Assembled.entry_part {flow : Flow} {stmts : List Stmt} {marker : String}
    {slot slot' : Slot} {node : Node} {above : Trail} (hflow : flow ∈ source.flows)
    (hstmts : Flow.toStmts settings 0 flow = .ok stmts) (hloops : above.loops = 0)
    (hpart : Part (.expr (settings.entry marker stmts)) slot' node) :
    Assembled settings source
      ((slot', node) :: (slot, .expr (settings.entry marker stmts)) :: above) := by
  cases hpart with
  | closureBody hs =>
    rcases getElem?_eq_or_last hs with hs | ⟨rfl, rfl⟩
    · refine .flow hflow (.of_toStmts (List.Subset.refl _) ?_ (List.mem_of_getElem? hs))
      rw [Trail.loops_cons, hloops]
      exact hstmts
    · exact .entryEnd

theorem Assembled.topLevel_part {i : Nat} {s : Stmt} {slot : Slot} {node : Node}
    (h : TopLevel settings source s) (hpart : Part (.stmt s) slot node) :
    Assembled settings source [(slot, node), (.body i, .stmt s)] := by
  cases h with
  | action hflow hstmts =>
    cases hpart with
    | bindValue => exact .action hflow hstmts
  | mouse hflow hstmts =>
    cases hpart with
    | exprValue => exact .mouseCall hflow hstmts
  | start =>
    cases hpart with
    | exprValue => exact .startCall

/-- **Stepping down stays on the list**: the parts of what is assembled are
    assembled. -/
theorem Assembled.part {slot slot' : Slot} {node node' : Node} {above : Trail}
    (h : Assembled settings source ((slot, node) :: above)) (hpart : Part node slot' node') :
    Assembled settings source ((slot', node') :: (slot, node) :: above) := by
  have hpath : ∀ dotted, (Expr.path dotted).IsChain fun _ => True :=
    fun dotted => Expr.isChain_path trivial
  cases h with
  | top h => exact Assembled.topLevel_part h hpart
  | action hflow hstmts => exact Assembled.entry_part hflow hstmts rfl hpart
  | mouseCall hflow hstmts =>
    cases hpart with
    | callCallee => exact .chain (hpath _)
    | callArg harg =>
      -- The closure is the only argument.
      rw [List.getElem?_singleton] at harg
      split at harg
      · next hi =>
        subst hi
        cases harg
        exact .mouse hflow hstmts
      · cases harg
  | mouse hflow hstmts => exact Assembled.entry_part hflow hstmts rfl hpart
  | entryEnd =>
    cases hpart with
    | retValue => exact .chain (.member (.ident trivial))
  | startCall =>
    cases hpart with
    | callCallee => exact .chain (hpath _)
    | callArg harg => simp at harg
  | chain he =>
    cases he with
    | ident h => cases hpart
    | member h =>
      cases hpart with
      | memberObject => exact .chain h
  | flow hflow h => exact .flow hflow (h.part hpart)

/-- **All trails through a compiled program are assembled.** -/
theorem Source.assembled_of_compile {p : Program} (h : source.compile settings = .ok p)
    {t : Trail} (ht : IsTrail (.program p) t) (hne : t ≠ []) : Assembled settings source t := by
  refine ht.invariant ?_ Assembled.part hne
  intro slot node hpart
  cases hpart with
  | program hs => exact .top (Source.topLevel_of_compile h (List.mem_of_getElem? hs))

end assembled

end BlockFlow
