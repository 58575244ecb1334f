import BlockFlow.Proofs.Lowering.Assembled
import Mathlib.Data.List.Forall2

/-! # A project is made of its parts

    The actions and mice of a project can be compiled all together, or one by
    one, each to a program of its own. Both ways agree.

    - `Project.outcomes` lists what becomes of the parts, one by one.
    - `JoinsParts` says how their programs are put together: the statements of
      the actions, those that make the mice, and one start at the end.
    - **Main statement** (`Program.ofProject_iff_joinsParts`): this is the
      program of the project; if there is none, the error is the first one
      among the outcomes. So a part becomes the same statement in whatever
      project it stands.

    Compiling a row of flows is a traversal that stops at the first error.
    What such a traversal gives is stated once (`mapM_eq_ok_iff_forall₂`,
    `failure?_mapM`), for actions and mice alike. -/

namespace BlockFlow

/-! ## Section 1: Traversals -/

section traversals

variable {ε α β : Type} {f : α → Except ε β}

/-- A traversal succeeds with the results of all items, in order. -/
theorem mapM_eq_ok_iff_forall₂ {items : List α} {results : List β} :
    items.mapM f = .ok results ↔
      List.Forall₂ (fun item result => f item = .ok result) items results := by
  induction items generalizing results with
  | nil =>
    rw [List.mapM_nil, List.forall₂_nil_left_iff]
    exact ⟨fun h => (Except.ok.inj h).symm, fun h => congrArg Except.ok h.symm⟩
  | cons item items ih =>
    rw [List.mapM_cons, List.forall₂_cons_left_iff]
    constructor
    · intro h
      obtain ⟨first, hfirst, h⟩ := exists_of_bind_eq_ok h
      obtain ⟨others, hothers, rfl⟩ := exists_of_bind_return_eq_ok h
      exact ⟨first, others, hfirst, ih.mp hothers, rfl⟩
    · rintro ⟨first, others, hfirst, hothers, rfl⟩
      rw [hfirst, ih.mpr hothers]
      rfl

/-- A traversal fails with the first error of its items. -/
theorem failure?_mapM (items : List α) :
    failure? (items.mapM f) = items.findSome? fun item => failure? (f item) := by
  induction items with
  | nil => rfl
  | cons item items ih =>
    rw [List.mapM_cons, List.findSome?_cons, ← ih]
    cases f item with
    | error e => rfl
    | ok first => cases items.mapM f <;> rfl

end traversals

/-- Rows that belong together item by item do so at every place. -/
theorem exists_getElem?_of_forall₂ {α β : Type} {related : α → β → Prop} {items : List α}
    {results : List β} (h : List.Forall₂ related items results) {i : Nat} {item : α}
    (hitem : items[i]? = some item) : ∃ result, results[i]? = some result ∧ related item result := by
  induction h generalizing i with
  | nil => cases hitem
  | @cons first result items results hfirst hrest ih =>
    cases i with
    | zero =>
      cases hitem
      exact ⟨result, rfl, hfirst⟩
    | succ i => exact ih hitem

/-! ## Section 2: Parts -/

namespace Program

variable {settings : Settings}

theorem actions_eq_mapM (entries : Entries Flow) :
    actions settings entries = entries.mapM fun entry => entry.2.toAction settings entry.1 := by
  induction entries with
  | nil => rfl
  | cons entry entries ih =>
    rw [List.mapM_cons, ← ih]
    rfl

theorem mice_eq_mapM (flows : List Flow) :
    mice settings flows = flows.mapM fun flow => flow.toMouse settings := by
  induction flows with
  | nil => rfl
  | cons flow flows ih =>
    rw [List.mapM_cons, ← ih]
    rfl

/-- The program of an action has a single statement, its declaration. -/
theorem ofAction_eq_ok_iff {name : String} {flow : Flow} {q : Program} :
    ofAction settings name flow = .ok q ↔
      ∃ s, flow.toAction settings name = .ok s ∧ q = ⟨[s]⟩ := by
  constructor
  · intro h
    obtain ⟨s, hs, rfl⟩ := exists_of_bind_return_eq_ok h
    exact ⟨s, hs, rfl⟩
  · rintro ⟨s, hs, rfl⟩
    unfold ofAction
    rw [hs]
    rfl

/-- The program of a mouse has two statements: it is made, and all start. -/
theorem ofFlow_eq_ok_iff {flow : Flow} {q : Program} :
    ofFlow settings flow = .ok q ↔
      ∃ s, flow.toMouse settings = .ok s ∧ q = ⟨[s, settings.start]⟩ := by
  constructor
  · intro h
    obtain ⟨s, hs, rfl⟩ := exists_of_bind_return_eq_ok h
    exact ⟨s, hs, rfl⟩
  · rintro ⟨s, hs, rfl⟩
    unfold ofFlow
    rw [hs]
    rfl

theorem failure?_ofAction (name : String) (flow : Flow) :
    failure? (ofAction settings name flow) = failure? (flow.toAction settings name) := by
  unfold ofAction
  cases flow.toAction settings name <;> rfl

theorem failure?_ofFlow (flow : Flow) :
    failure? (ofFlow settings flow) = failure? (flow.toMouse settings) := by
  unfold ofFlow
  cases flow.toMouse settings <;> rfl

end Program

/-- What becomes of the parts of a project, one by one: of the actions and then
    of the mice, both in order. -/
def Project.outcomes (settings : Settings) (project : Project) :
    List (Except CompileError Program) :=
  project.actions.map (fun entry => Program.ofAction settings entry.1 entry.2) ++
    project.mice.map (Program.ofFlow settings)

/-- **Parts put together**: the only statement of each action, the first
    statement of each mouse, and a start, which is the last statement that the
    program of any mouse has. -/
def JoinsParts (settings : Settings) (project : Project) (p : Program) : Prop :=
  ∃ declarations makers start, p.body = declarations ++ makers ++ [start] ∧
    List.Forall₂ (fun entry s => Program.ofAction settings entry.1 entry.2 = .ok ⟨[s]⟩)
      project.actions declarations ∧
    List.Forall₂ (fun flow s => ∃ q, Program.ofFlow settings flow = .ok q ∧ q.body.head? = some s)
      project.mice makers ∧
    ∀ flow q, Program.ofFlow settings flow = .ok q → q.body.getLast? = some start

/-! ## Section 3: Whole projects -/

section projects

variable {settings : Settings} {project : Project}

theorem Program.actions_eq_ok_iff {entries : Entries Flow} {stmts : List Stmt} :
    Program.actions settings entries = .ok stmts ↔
      List.Forall₂ (fun entry s => Program.ofAction settings entry.1 entry.2 = .ok ⟨[s]⟩)
        entries stmts := by
  have halone : ∀ (entry : String × Flow) (s : Stmt),
      entry.2.toAction settings entry.1 = .ok s ↔
        Program.ofAction settings entry.1 entry.2 = .ok ⟨[s]⟩ := by
    intro entry s
    simp [Program.ofAction_eq_ok_iff]
  rw [Program.actions_eq_mapM, mapM_eq_ok_iff_forall₂]
  simp only [halone]

theorem Program.mice_eq_ok_iff {flows : List Flow} {stmts : List Stmt} :
    Program.mice settings flows = .ok stmts ↔
      List.Forall₂ (fun flow s => ∃ q, Program.ofFlow settings flow = .ok q ∧ q.body.head? = some s)
        flows stmts := by
  have halone : ∀ (flow : Flow) (s : Stmt), flow.toMouse settings = .ok s ↔
      ∃ q, Program.ofFlow settings flow = .ok q ∧ q.body.head? = some s := by
    intro flow s
    simp only [Program.ofFlow_eq_ok_iff]
    constructor
    · intro hs
      exact ⟨_, ⟨s, hs, rfl⟩, rfl⟩
    · rintro ⟨q, ⟨s', hs, rfl⟩, hhead⟩
      cases hhead
      exact hs
  rw [Program.mice_eq_mapM, mapM_eq_ok_iff_forall₂]
  simp only [halone]

theorem Program.getLast?_of_ofFlow {flow : Flow} {q : Program}
    (h : Program.ofFlow settings flow = .ok q) : q.body.getLast? = some settings.start := by
  obtain ⟨s, hs, rfl⟩ := Program.ofFlow_eq_ok_iff.mp h
  rfl

/-- The program of the project is that of its parts. -/
theorem Program.ofProject_eq_ok_iff {p : Program} :
    Program.ofProject settings project = .ok p ↔ JoinsParts settings project p := by
  constructor
  · intro h
    obtain ⟨declarations, hactions, h⟩ := exists_of_bind_eq_ok h
    obtain ⟨makers, hmice, rfl⟩ := exists_of_bind_return_eq_ok h
    exact ⟨declarations, makers, settings.start, rfl, Program.actions_eq_ok_iff.mp hactions,
      Program.mice_eq_ok_iff.mp hmice, fun _ _ => Program.getLast?_of_ofFlow⟩
  · rintro ⟨declarations, makers, start, hbody, hactions, hmice, hstart⟩
    -- The empty flow compiles, and its program shows what the start is.
    have hempty := hstart [] _ rfl
    cases hempty
    obtain ⟨body⟩ := p
    cases hbody
    unfold Program.ofProject
    rw [Program.actions_eq_ok_iff.mpr hactions, Program.mice_eq_ok_iff.mpr hmice]
    rfl

/-- The first failure among the parts is that of the project. -/
theorem Program.failure?_ofProject :
    failure? (Program.ofProject settings project) =
      (project.outcomes settings).findSome? failure? := by
  have hactions : failure? (Program.actions settings project.actions) =
      (project.actions.map fun entry =>
        Program.ofAction settings entry.1 entry.2).findSome? failure? := by
    rw [Program.actions_eq_mapM, failure?_mapM, List.findSome?_map]
    simp only [Function.comp_def, Program.failure?_ofAction]
  have hmice : failure? (Program.mice settings project.mice) =
      (project.mice.map (Program.ofFlow settings)).findSome? failure? := by
    rw [Program.mice_eq_mapM, failure?_mapM, List.findSome?_map]
    simp only [Function.comp_def, Program.failure?_ofFlow]
  unfold Project.outcomes
  rw [List.findSome?_append, ← hactions, ← hmice]
  exact failure?_bind_map _ _ fun declarations makers =>
    (⟨declarations ++ makers ++ [settings.start]⟩ : Program)

/-- A project compiles exactly if all its parts do. -/
theorem Program.exists_ofProject_eq_ok_iff :
    (∃ p, Program.ofProject settings project = .ok p) ↔
      (∀ entry ∈ project.actions, ∃ q, Program.ofAction settings entry.1 entry.2 = .ok q) ∧
        ∀ flow ∈ project.mice, ∃ q, Program.ofFlow settings flow = .ok q := by
  rw [← failure?_eq_none_iff, Program.failure?_ofProject, List.findSome?_eq_none_iff]
  simp only [Project.outcomes, List.forall_mem_append, List.forall_mem_map, failure?_eq_none_iff]

theorem JoinsParts.exists_action {p : Program} (h : JoinsParts settings project p) {i : Nat}
    {entry : String × Flow} (hentry : project.actions[i]? = some entry) :
    ∃ s, p.body[i]? = some s ∧ Program.ofAction settings entry.1 entry.2 = .ok ⟨[s]⟩ := by
  obtain ⟨declarations, makers, start, hbody, hactions, hmice, hstart⟩ := h
  obtain ⟨s, hs, hentry⟩ := exists_getElem?_of_forall₂ hactions hentry
  have hi : i < declarations.length := (List.getElem?_eq_some_iff.mp hs).1
  refine ⟨s, ?_, hentry⟩
  rw [hbody, List.append_assoc, List.getElem?_append_left hi, hs]

theorem JoinsParts.exists_mouse {p : Program} (h : JoinsParts settings project p) {i : Nat}
    {flow : Flow} (hflow : project.mice[i]? = some flow) :
    ∃ s q, p.body[project.actions.length + i]? = some s ∧
      Program.ofFlow settings flow = .ok q ∧ q.body.head? = some s := by
  obtain ⟨declarations, makers, start, hbody, hactions, hmice, hstart⟩ := h
  obtain ⟨s, hs, q, hq, hhead⟩ := exists_getElem?_of_forall₂ hmice hflow
  have hi : i < makers.length := (List.getElem?_eq_some_iff.mp hs).1
  refine ⟨s, q, ?_, hq, hhead⟩
  rw [hbody, hactions.length_eq, List.append_assoc,
    List.getElem?_append_right (Nat.le_add_right _ _), Nat.add_sub_cancel_left,
    List.getElem?_append_left hi, hs]

end projects

/-- **Independence of parts**: what two projects share becomes the same
    statement in both programs, wherever it stands and whatever else there
    is. -/
structure SharesStatements (project project' : Project) (p p' : Program) : Prop where
  /-- An action of both, under the same name. -/
  action : ∀ {i j : Nat} {entry : String × Flow}, project.actions[i]? = some entry →
    project'.actions[j]? = some entry → p.body[i]? = p'.body[j]?
  /-- A mouse of both. -/
  mouse : ∀ {i j : Nat} {flow : Flow}, project.mice[i]? = some flow →
    project'.mice[j]? = some flow →
      p.body[project.actions.length + i]? = p'.body[project'.actions.length + j]?

theorem JoinsParts.sharesStatements {settings : Settings} {project project' : Project}
    {p p' : Program} (h : JoinsParts settings project p) (h' : JoinsParts settings project' p') :
    SharesStatements project project' p p' where
  action hentry hentry' := by
    obtain ⟨s, hs, hq⟩ := h.exists_action hentry
    obtain ⟨s', hs', hq'⟩ := h'.exists_action hentry'
    rw [hq] at hq'
    cases hq'
    rw [hs, hs']
  mouse hflow hflow' := by
    obtain ⟨s, q, hs, hq, hhead⟩ := h.exists_mouse hflow
    obtain ⟨s', q', hs', hq', hhead'⟩ := h'.exists_mouse hflow'
    rw [hq] at hq'
    cases hq'
    rw [hs, hs', ← hhead, hhead']

/-- **A project is made of its parts.** It compiles exactly if all its actions
    and mice do, one by one; its program is theirs put together; and if there
    is none, its error is the first one of theirs. So the program of a mouse is
    that of a project with nothing else in it, and a part becomes the same
    statement in every project. -/
theorem Program.ofProject_iff_joinsParts (settings : Settings) (project : Project) :
    ((∃ p, Program.ofProject settings project = .ok p) ↔
      (∀ entry ∈ project.actions, ∃ q, Program.ofAction settings entry.1 entry.2 = .ok q) ∧
        ∀ flow ∈ project.mice, ∃ q, Program.ofFlow settings flow = .ok q) ∧
    (∀ p, Program.ofProject settings project = .ok p ↔ JoinsParts settings project p) ∧
    (∀ error, Program.ofProject settings project = .error error ↔
      (project.outcomes settings).findSome? failure? = some error) ∧
    (∀ flow, Program.ofFlow settings flow = Program.ofProject settings ⟨[], [flow]⟩) ∧
    ∀ project' p p', Program.ofProject settings project = .ok p →
      Program.ofProject settings project' = .ok p' → SharesStatements project project' p p' := by
  refine ⟨Program.exists_ofProject_eq_ok_iff, fun p => Program.ofProject_eq_ok_iff, ?_, ?_, ?_⟩
  · intro error
    rw [← failure?_eq_some_iff, Program.failure?_ofProject]
  · intro flow
    unfold Program.ofFlow Program.ofProject Program.mice
    cases flow.toMouse settings <;> rfl
  · intro project' p p' h h'
    exact (Program.ofProject_eq_ok_iff.mp h).sharesStatements (Program.ofProject_eq_ok_iff.mp h')

/-- Two projects that share an action and a mouse, and one with two faults. -/
theorem Program.ofProject_iff_joinsParts_shared :
    let settings : Settings := ⟨{ methods := [("note", "playNote")], clamps := ["note"] }, {}⟩
    let chorus : Flow := [⟨.op "note", [.box "x"], some [⟨.op "print", [], none, none⟩], none⟩]
    let mouse : Flow := [⟨.perform "chorus", [], none, none⟩]
    let project : Project := ⟨[("verse", []), ("chorus", chorus)], [mouse]⟩
    let project' : Project := ⟨[("chorus", chorus)], [[], mouse]⟩
    let broken : Project :=
      ⟨[("verse", []), ("chorus", [⟨.op "x", [], none, none⟩])], [[⟨.op "y", [], none, none⟩]]⟩
    (∃ p p', Program.ofProject settings project = .ok p ∧
      Program.ofProject settings project' = .ok p' ∧ JoinsParts settings project p ∧
      p.body[1]? = p'.body[0]? ∧ p.body[2]? = p'.body[2]?) ∧
    Program.ofProject settings broken = .error (.unsupported "x") := by
  intro settings chorus mouse project project' broken
  have hproject : Program.ofProject settings project = .ok _ := rfl
  have hproject' : Program.ofProject settings project' = .ok _ := rfl
  obtain ⟨-, hjoins, -, -, hshares⟩ := Program.ofProject_iff_joinsParts settings project
  have hshared := hshares project' _ _ hproject hproject'
  refine ⟨⟨_, _, hproject, hproject', (hjoins _).mp hproject, ?_, ?_⟩, ?_⟩
  · exact hshared.action (i := 1) (j := 0) rfl rfl
  · exact hshared.mouse (i := 0) (j := 1) rfl rfl
  · obtain ⟨-, -, herror, -, -⟩ := Program.ofProject_iff_joinsParts settings broken
    exact (herror _).mpr rfl

end BlockFlow
