import BlockFlow.Flow.Project
import BlockFlow.Proofs.Flow.Grammar
import BlockFlow.Proofs.Lowering.Parts

/-! # Projects from JSON

    A project is read in two stages: first its shape, with the flows left as
    they are, and then the flows one by one.

    - `Project.Shaped` says which documents have the shape of a project, and
      which actions and mice they give.
    - **Main statement** (`Project.ofJson_iff_shaped`): a document without that
      shape is refused as such, whatever is in its flows. Any other is decoded
      flow by flow, the actions before the mice, up to the first error. An
      object gives the same as the list of its two members.
    - `Project.ofJson_order` is an object that gives another error than the
      list: both members are of the wrong kind, and the one that stands first
      is reported.

    Reading an object goes from member to member; what has been taken in so far
    is overwritten by what comes (`Outer.ofMembers_eq_ok_iff`). -/

namespace BlockFlow

/-! ## Section 1: Shapes -/

/-- The values of all members with a name, in order. -/
def Json.under (name : String) (members : List (String × Json)) : List Json :=
  (members.filter fun member => member.1 = name).map Prod.snd

@[simp] theorem Json.under_cons_self (name : String) (value : Json)
    (members : List (String × Json)) :
    Json.under name ((name, value) :: members) = value :: Json.under name members := by
  simp [Json.under]

@[simp] theorem Json.under_cons_ne {name other : String} (h : other ≠ name) (value : Json)
    (members : List (String × Json)) :
    Json.under name ((other, value) :: members) = Json.under name members := by
  simp [Json.under, h]

namespace Project

/-- **Shapes of projects**: a document with its actions and mice. What is
    missing is empty; should a name be repeated in an object, the last one
    counts. -/
inductive Shaped : Json → List (String × Json) → List Json → Prop where
  /-- An object with actions, which are an object, and mice, which are a list. -/
  | object {members : List (String × Json)} {actions : List (List (String × Json))}
      {mice : List (List Json)} (hactions : Json.under "actions" members = actions.map .object)
      (hmice : Json.under "mice" members = mice.map .list) :
      Shaped (.object members) (actions.getLastD []) (mice.getLastD [])
  /-- A list of nothing, -/
  | nothing : Shaped (.list []) [] []
  /-- of the actions, -/
  | actions {actions : List (String × Json)} : Shaped (.list [.object actions]) actions []
  /-- or of the actions and the mice. -/
  | both {actions : List (String × Json)} {mice : List Json} :
      Shaped (.list [.object actions, .list mice]) actions mice

/-- The names of the two members that count. -/
def isKnown (member : String × Json) : Bool := member.1 = "actions" || member.1 = "mice"

theorem actionsOfJson_eq_ok_iff {j : Json} {actions : List (String × Json)} :
    actionsOfJson j = .ok actions ↔ j = .object actions := by
  cases j <;> simp [actionsOfJson]

theorem miceOfJson_eq_ok_iff {j : Json} {mice : List Json} :
    miceOfJson j = .ok mice ↔ j = .list mice := by
  cases j <;> simp [miceOfJson]

namespace Outer

/-- Taking in members leaves the last of each name, or else what was there. -/
theorem ofMembers_eq_ok_iff {members : List (String × Json)} {outer outer' : Outer} :
    outer.ofMembers members = .ok outer' ↔
      ∃ (actions : List (List (String × Json))) (mice : List (List Json)),
        Json.under "actions" members = actions.map .object ∧
        Json.under "mice" members = mice.map .list ∧
        outer' = ⟨actions.getLastD outer.actions, mice.getLastD outer.mice⟩ := by
  induction members generalizing outer with
  | nil =>
    rw [ofMembers]
    constructor
    · intro h
      cases h
      exact ⟨[], [], rfl, rfl, rfl⟩
    · rintro ⟨actions, mice, hactions, hmice, rfl⟩
      cases actions <;> cases hactions
      cases mice <;> cases hmice
      rfl
  | cons member members ih =>
    obtain ⟨key, value⟩ := member
    rw [ofMembers]
    split
    · next hkey =>
      -- The actions so far, or those from before, give way to these.
      subst hkey
      rw [Json.under_cons_self, Json.under_cons_ne (by decide)]
      constructor
      · intro h
        obtain ⟨first, hfirst, h⟩ := exists_of_bind_eq_ok h
        obtain ⟨actions, mice, hactions, hmice, rfl⟩ := ih.mp h
        rw [actionsOfJson_eq_ok_iff] at hfirst
        refine ⟨first :: actions, mice, ?_, hmice, ?_⟩
        · rw [hfirst, hactions, List.map_cons]
        · rw [List.getLastD_cons]
      · rintro ⟨actions, mice, hactions, hmice, rfl⟩
        obtain ⟨first, others, rfl, rfl, hothers⟩ := List.map_eq_cons_iff.mp hactions.symm
        refine ih.mpr ⟨others, mice, hothers.symm, hmice, ?_⟩
        rw [List.getLastD_cons]
    · next hkey =>
      split
      · next hkey' =>
        subst hkey'
        rw [Json.under_cons_self, Json.under_cons_ne (by decide)]
        constructor
        · intro h
          obtain ⟨first, hfirst, h⟩ := exists_of_bind_eq_ok h
          obtain ⟨actions, mice, hactions, hmice, rfl⟩ := ih.mp h
          rw [miceOfJson_eq_ok_iff] at hfirst
          refine ⟨actions, first :: mice, hactions, ?_, ?_⟩
          · rw [hfirst, hmice, List.map_cons]
          · rw [List.getLastD_cons]
        · rintro ⟨actions, mice, hactions, hmice, rfl⟩
          obtain ⟨first, others, rfl, rfl, hothers⟩ := List.map_eq_cons_iff.mp hmice.symm
          refine ih.mpr ⟨actions, others, hactions, hothers.symm, ?_⟩
          rw [List.getLastD_cons]
      · next hkey' =>
        rw [Json.under_cons_ne hkey, Json.under_cons_ne hkey']
        exact ih

/-- Members that do not count are passed over. -/
theorem ofMembers_filter (outer : Outer) (members : List (String × Json)) :
    outer.ofMembers (members.filter isKnown) = outer.ofMembers members := by
  induction members generalizing outer with
  | nil => rfl
  | cons member members ih =>
    obtain ⟨key, value⟩ := member
    by_cases hknown : isKnown (key, value)
    · rw [List.filter_cons_of_pos hknown, ofMembers, ofMembers]
      simp only [ih]
    · rw [List.filter_cons_of_neg hknown, ofMembers, ih]
      simp only [isKnown, Bool.or_eq_true, decide_eq_true_eq, not_or] at hknown
      rw [if_neg hknown.1, if_neg hknown.2]

/-- A document is taken in exactly if it has the shape of a project. -/
theorem ofJson_eq_ok_iff {j : Json} {actions : List (String × Json)} {mice : List Json} :
    Outer.ofJson j = .ok ⟨actions, mice⟩ ↔ Shaped j actions mice := by
  constructor
  · intro h
    unfold Outer.ofJson at h
    split at h
    · obtain ⟨given, given', hactions, hmice, heq⟩ := ofMembers_eq_ok_iff.mp h
      cases heq
      exact .object hactions hmice
    · cases h
      exact .nothing
    · obtain ⟨first, hfirst, heq⟩ := exists_of_bind_return_eq_ok h
      cases heq
      rw [actionsOfJson_eq_ok_iff.mp hfirst]
      exact .actions
    · next more =>
      obtain ⟨first, hfirst, h⟩ := exists_of_bind_eq_ok h
      obtain ⟨second, hsecond, h⟩ := exists_of_bind_eq_ok h
      rw [actionsOfJson_eq_ok_iff.mp hfirst, miceOfJson_eq_ok_iff.mp hsecond]
      -- Anything behind the second item is one too many.
      cases more with
      | nil =>
        cases h
        exact .both
      | cons third more => cases h
    · cases h
  · intro h
    cases h with
    | object hactions hmice => exact ofMembers_eq_ok_iff.mpr ⟨_, _, hactions, hmice, rfl⟩
    | nothing | actions | both => rfl

end Outer

end Project

/-! ## Section 2: Flows -/

/-- No fault inside a flow is one of a project. -/
theorem Place.FaultAt.ne_badProject {place : Place} {j : Json} {address : List Nat} {e : FlowError}
    (h : place.FaultAt j address e) (problem : Json.Problem) : e ≠ .badProject problem := by
  induction h with
  | here hfault =>
    rintro rfl
    unfold Place.fault? at hfault
    split at hfault <;> cases hfault
  | inside hpiece h ih => exact ih

theorem Flow.ofJson_ne_badProject (j : Json) (problem : Json.Problem) :
    Flow.ofJson j ≠ .error (.badProject problem) := by
  intro h
  have hfirst : Place.flow.FirstFault j (.badProject problem) :=
    (@Place.failure?_eq_some_iff .flow j _).mp (failure?_eq_some_iff.mpr h)
  obtain ⟨address, hfault, -⟩ := hfirst
  exact hfault.ne_badProject problem rfl

namespace Project

theorem namedFlows_eq_mapM (members : List (String × Json)) :
    namedFlows members = members.mapM fun member => (member.1, ·) <$> Flow.ofJson member.2 := by
  induction members with
  | nil => rfl
  | cons member members ih =>
    rw [List.mapM_cons, ← ih, namedFlows]
    cases Flow.ofJson member.2 <;> rfl

theorem flows_eq_mapM (values : List Json) : flows values = values.mapM Flow.ofJson := by
  induction values with
  | nil => rfl
  | cons value values ih =>
    rw [List.mapM_cons, ← ih]
    rfl

/-- The flows of a project in the order in which they are decoded: the actions
    before the mice. -/
def values (actions : List (String × Json)) (mice : List Json) : List Json :=
  actions.map Prod.snd ++ mice

section shaped

variable {j : Json} {actions : List (String × Json)} {mice : List Json}

/-- With the shape settled, the flows are what is left. -/
theorem ofJson_of_shaped (h : Shaped j actions mice) :
    ofJson j = (do
      let actions ← namedFlows actions
      let mice ← flows mice
      return ⟨actions, mice⟩) := by
  have houter := Outer.ofJson_eq_ok_iff.mpr h
  unfold ofJson
  rw [houter]
  rfl

/-- The first flow that fails is the failure of the project. -/
theorem failure?_ofJson_of_shaped (h : Shaped j actions mice) :
    failure? (ofJson j) =
      (values actions mice).findSome? fun value => failure? (Flow.ofJson value) := by
  have hactions : failure? (namedFlows actions) =
      (actions.map Prod.snd).findSome? fun value => failure? (Flow.ofJson value) := by
    rw [namedFlows_eq_mapM, failure?_mapM, List.findSome?_map]
    simp only [Function.comp_def, failure?_map]
  rw [ofJson_of_shaped h, values, List.findSome?_append, ← hactions, ← failure?_mapM,
    ← flows_eq_mapM]
  exact failure?_bind_map _ _ fun actions mice => (⟨actions, mice⟩ : Project)

/-- A project has the names of its actions in the order of the document, each
    with the flow of its value, and the flows of the mice in order. -/
theorem ofJson_eq_ok_iff_of_shaped (h : Shaped j actions mice) {project : Project} :
    ofJson j = .ok project ↔
      List.Forall₂ (fun member entry => entry.1 = member.1 ∧ Flow.ofJson member.2 = .ok entry.2)
        actions project.actions ∧
      List.Forall₂ (fun value flow => Flow.ofJson value = .ok flow) mice project.mice := by
  have hentry : ∀ (member : String × Json) (entry : String × Flow),
      (member.1, ·) <$> Flow.ofJson member.2 = .ok entry ↔
        entry.1 = member.1 ∧ Flow.ofJson member.2 = .ok entry.2 := by
    rintro ⟨name, value⟩ ⟨name', flow⟩
    cases Flow.ofJson value with
    | error e => simp
    | ok flow' => simp [Prod.ext_iff, eq_comm]
  rw [ofJson_of_shaped h]
  simp only [← hentry, ← mapM_eq_ok_iff_forall₂, ← namedFlows_eq_mapM, ← flows_eq_mapM]
  constructor
  · intro h
    obtain ⟨actions', hactions, h⟩ := exists_of_bind_eq_ok h
    obtain ⟨mice', hmice, rfl⟩ := exists_of_bind_return_eq_ok h
    exact ⟨hactions, hmice⟩
  · rintro ⟨hactions, hmice⟩
    rw [hactions, hmice]
    rfl

end shaped

/-- A document without the shape of a project is refused as such, and no other
    one is. -/
theorem exists_badProject_iff {j : Json} :
    (∃ problem, ofJson j = .error (.badProject problem)) ↔
      ¬ ∃ actions mice, Shaped j actions mice := by
  constructor
  · rintro ⟨problem, h⟩ ⟨actions, mice, hshaped⟩
    rw [← failure?_eq_some_iff, failure?_ofJson_of_shaped hshaped] at h
    obtain ⟨value, -, hvalue⟩ := List.exists_of_findSome?_eq_some h
    exact Flow.ofJson_ne_badProject value problem (failure?_eq_some_iff.mp hvalue)
  · intro h
    cases houter : Outer.ofJson j with
    | ok outer => exact absurd ⟨_, _, Outer.ofJson_eq_ok_iff.mp houter⟩ h
    | error problem =>
      refine ⟨problem, ?_⟩
      unfold ofJson
      rw [houter]
      rfl

/-! ## Section 3: Objects and lists -/

section forms

variable {members : List (String × Json)} {actions mice : Json}

/-- The two members that count, in the order of the list. -/
theorem outer_object_of_actions_first
    (h : members.filter isKnown = [("actions", actions), ("mice", mice)]) :
    Outer.ofJson (.object members) = Outer.ofJson (.list [actions, mice]) := by
  rw [Outer.ofJson, ← Outer.ofMembers_filter, h]
  simp only [Outer.ofMembers, Outer.ofJson]
  cases actionsOfJson actions with
  | error problem => rfl
  | ok actions => cases miceOfJson mice <;> rfl

/-- The two members that count, in the other order. -/
theorem outer_object_of_mice_first
    (h : members.filter isKnown = [("mice", mice), ("actions", actions)]) :
    Outer.ofJson (.object members) = (do
      let mice ← miceOfJson mice
      let actions ← actionsOfJson actions
      return ⟨actions, mice⟩) := by
  rw [Outer.ofJson, ← Outer.ofMembers_filter, h]
  simp only [Outer.ofMembers]
  cases miceOfJson mice with
  | error problem => rfl
  | ok mice => cases actionsOfJson actions <;> rfl

/-- One of the two is of the right kind: the order makes no difference. -/
theorem outer_object_of_isRight
    (h : members.filter isKnown = [("mice", mice), ("actions", actions)])
    (hright : (∃ contents, actions = .object contents) ∨ ∃ items, mice = .list items) :
    Outer.ofJson (.object members) = Outer.ofJson (.list [actions, mice]) := by
  rw [outer_object_of_mice_first h]
  rcases hright with ⟨contents, rfl⟩ | ⟨items, rfl⟩
  · simp only [Outer.ofJson, actionsOfJson]
    cases miceOfJson mice <;> rfl
  · simp only [Outer.ofJson, miceOfJson]
    cases actionsOfJson actions <;> rfl

/-- Neither of the two is of the right kind: each form reports the one that
    stands first in it. -/
theorem ofJson_of_neither
    (h : members.filter isKnown = [("mice", mice), ("actions", actions)])
    (hactions : ∀ contents, actions ≠ .object contents) (hmice : ∀ items, mice ≠ .list items) :
    ofJson (.object members) = .error (.badProject (.wrongType mice.found "a sequence")) ∧
    ofJson (.list [actions, mice]) = .error (.badProject (.wrongType actions.found "a map")) := by
  have hactions' : actionsOfJson actions = .error (.wrongType actions.found "a map") := by
    cases actions with
    | object contents => exact absurd rfl (hactions contents)
    | null | bool | number | string | list => rfl
  have hmice' : miceOfJson mice = .error (.wrongType mice.found "a sequence") := by
    cases mice with
    | list items => exact absurd rfl (hmice items)
    | null | bool | number | string | object => rfl
  constructor
  · unfold ofJson
    rw [outer_object_of_mice_first h, hmice']
    rfl
  · unfold ofJson
    rw [Outer.ofJson, hactions']
    rfl

end forms

end Project

/-- **Projects from JSON.** A document is refused as a project exactly if it
    does not have the shape of one, whatever its flows are. Otherwise the error
    is that of the first flow that fails, the actions before the mice; or there
    is a project, with the actions under their names and the mice in their
    order. An object whose members are, besides others, actions and mice gives
    the same as the list of the two. Only if both are of the wrong kind, and
    the mice stand first, it is refused for the mice and the list for the
    actions. -/
theorem Project.ofJson_iff_shaped (j : Json) :
    ((∃ problem, Project.ofJson j = .error (.badProject problem)) ↔
      ¬ ∃ actions mice, Project.Shaped j actions mice) ∧
    (∀ actions mice, Project.Shaped j actions mice →
      (∀ error, Project.ofJson j = .error error ↔
        (Project.values actions mice).findSome? (fun value => failure? (Flow.ofJson value)) =
          some error) ∧
      ∀ project, Project.ofJson j = .ok project ↔
        List.Forall₂ (fun member entry => entry.1 = member.1 ∧ Flow.ofJson member.2 = .ok entry.2)
          actions project.actions ∧
        List.Forall₂ (fun value flow => Flow.ofJson value = .ok flow) mice project.mice) ∧
    ∀ members actions mice, j = .object members →
      (members.filter Project.isKnown = [("actions", actions), ("mice", mice)] →
        Project.ofJson j = Project.ofJson (.list [actions, mice])) ∧
      (members.filter Project.isKnown = [("mice", mice), ("actions", actions)] →
        ((∃ contents, actions = .object contents) ∨ (∃ items, mice = .list items) →
          Project.ofJson j = Project.ofJson (.list [actions, mice])) ∧
        ((∀ contents, actions ≠ .object contents) → (∀ items, mice ≠ .list items) →
          Project.ofJson j = .error (.badProject (.wrongType mice.found "a sequence")) ∧
          Project.ofJson (.list [actions, mice]) =
            .error (.badProject (.wrongType actions.found "a map")))) := by
  refine ⟨Project.exists_badProject_iff, ?_, ?_⟩
  · intro actions mice hshaped
    constructor
    · intro error
      rw [← failure?_eq_some_iff, Project.failure?_ofJson_of_shaped hshaped]
    · intro project
      exact Project.ofJson_eq_ok_iff_of_shaped hshaped
  · rintro members actions mice rfl
    refine ⟨?_, ?_⟩
    · intro h
      unfold Project.ofJson
      rw [Project.outer_object_of_actions_first h]
    · intro h
      refine ⟨?_, Project.ofJson_of_neither h⟩
      intro hright
      unfold Project.ofJson
      rw [Project.outer_object_of_isRight h hright]

/-- An object with the mice first and something else besides; a list with two
    flows at fault, of which the first counts; and one with a flow at fault and
    without the shape of a project, which is what counts. -/
theorem Project.ofJson_iff_shaped_mixed :
    let actions : Json := .object [("g", .list [.list [.string "print"]]), ("f", .null)]
    let mice : Json := .list [.list [.list [.string "nameddo_g"]]]
    let document : Json :=
      .object [("title", .string "x"), ("mice", mice), ("size", .null), ("actions", actions)]
    let project : Project := ⟨[("g", [⟨.op "print", [], none, none⟩]), ("f", [])],
      [[⟨.perform "g", [], none, none⟩]]⟩
    let broken : Json := .list [.object [("g", .null), ("f", .bool true)], .list [.bool false]]
    let misshapen : Json := .list [.object [("f", .bool true)], .null]
    Project.ofJson document = .ok project ∧
    Project.ofJson document = Project.ofJson (.list [actions, mice]) ∧
    Project.ofJson broken = .error (.notAFlow (.bool true)) ∧
    ∃ problem, Project.ofJson misshapen = .error (.badProject problem) := by
  intro actions mice document project broken misshapen
  obtain ⟨-, hshaped, hforms⟩ := Project.ofJson_iff_shaped document
  obtain ⟨-, hbroken, -⟩ := Project.ofJson_iff_shaped broken
  obtain ⟨hmisshapen, -, -⟩ := Project.ofJson_iff_shaped misshapen
  have hdocument : Project.Shaped document [("g", .list [.list [.string "print"]]), ("f", .null)]
      [.list [.list [.string "nameddo_g"]]] :=
    @Project.Shaped.object _ [_] [_] rfl rfl
  refine ⟨?_, ?_, ?_, ?_⟩
  · refine ((hshaped _ _ hdocument).2 project).mpr ⟨?_, ?_⟩
    · exact .cons ⟨rfl, rfl⟩ (.cons ⟨rfl, rfl⟩ .nil)
    · exact .cons rfl .nil
  · exact ((hforms _ actions mice rfl).2 rfl).1 (Or.inr ⟨_, rfl⟩)
  · exact ((hbroken _ _ .both).1 _).mpr rfl
  · refine hmisshapen.mpr ?_
    rintro ⟨_, _, h⟩
    change Project.Shaped (.list [.object [("f", .bool true)], .null]) _ _ at h
    cases h

/-- Neither member is of the right kind. The object is refused for the mice,
    which stand first in it, and the list for the actions. -/
theorem Project.ofJson_order :
    Project.ofJson (.object [("mice", .null), ("actions", .null)]) ≠
      Project.ofJson (.list [.null, .null]) := by
  have hobject : Project.ofJson (.object [("mice", .null), ("actions", .null)]) =
      .error (.badProject (.wrongType .null "a sequence")) := rfl
  have hlist : Project.ofJson (.list [.null, .null]) =
      .error (.badProject (.wrongType .null "a map")) := rfl
  rw [hobject, hlist]
  simp

end BlockFlow
