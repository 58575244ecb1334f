import BlockFlow.Program.Render

/-! # Dotted names

    A dotted name is cut at its dots, the pieces become properties of a
    variable, and showing the result writes the dots again. The three steps
    run in different directions: the cut goes from the end of the name to its
    start, the properties are added from the inside to the outside, and the
    text follows the tree. They cancel for every name, also for one with empty
    pieces.

    - `Text.segments_flatMap`: no character is lost in the cut.
    - `Text.length_segments` and `Text.mark_notMem_segments`: every mark is a
      cut.
    - `Expr.path_append` says that a path goes on where another one ends.
    - **Main statement** (`Expr.path_and_memberPath_laws`): the laws of paths,
      by which different names have different paths. -/

namespace BlockFlow

/-! ## Section 1: Cutting a text -/

namespace Text

theorem segments_of_notMem {mark : Char} {cs : List Char} (h : mark ∉ cs) :
    segments mark cs = (cs, []) := by
  induction cs with
  | nil => rfl
  | cons c cs ih =>
    rw [List.mem_cons, not_or] at h
    rw [segments_cons (Ne.symm h.1), ih h.2]

/-- A mark starts a new piece, wherever it stands. -/
theorem segments_append_mark (mark : Char) (cs rest : List Char) :
    segments mark (cs ++ mark :: rest) =
      ((segments mark cs).1,
        (segments mark cs).2 ++ (segments mark rest).1 :: (segments mark rest).2) := by
  induction cs with
  | nil => simp
  | cons c cs ih =>
    by_cases hc : c = mark
    · subst hc
      simp [ih]
    · simp [segments_cons hc, ih]

/-- The pieces, each but the first behind a mark, are the whole text. -/
theorem segments_flatMap (mark : Char) (cs : List Char) :
    (segments mark cs).1 ++ (segments mark cs).2.flatMap (mark :: ·) = cs := by
  induction cs with
  | nil => rfl
  | cons c cs ih =>
    by_cases hc : c = mark
    · subst hc
      rw [segments_mark, List.nil_append, List.flatMap_cons, List.cons_append, ih]
    · rw [segments_cons hc, List.cons_append, ih]

/-- Every mark starts a piece. -/
theorem length_segments (mark : Char) (cs : List Char) :
    (segments mark cs).2.length = cs.count mark := by
  induction cs with
  | nil => rfl
  | cons c cs ih =>
    by_cases hc : c = mark
    · subst hc
      rw [segments_mark, List.length_cons, ih, List.count_cons_self]
    · rw [segments_cons hc, ih, List.count_cons_of_ne hc]

/-- No piece has a mark in it. -/
theorem mark_notMem_segments (mark : Char) (cs : List Char) :
    ∀ piece ∈ (segments mark cs).1 :: (segments mark cs).2, mark ∉ piece := by
  induction cs with
  | nil => simp
  | cons c cs ih =>
    by_cases hc : c = mark
    · subst hc
      rw [segments_mark]
      exact List.forall_mem_cons.mpr ⟨List.not_mem_nil, ih⟩
    · obtain ⟨hfirst, hrest⟩ := List.forall_mem_cons.mp ih
      rw [segments_cons hc]
      refine List.forall_mem_cons.mpr ⟨?_, hrest⟩
      rw [List.mem_cons, not_or]
      exact ⟨Ne.symm hc, hfirst⟩

end Text

/-! ## Section 2: Paths and their texts -/

namespace Expr

/-- Every piece is shown behind a dot. -/
theorem toList_render_members (object : Expr) (pieces : List (List Char)) :
    (members object pieces).render.toList =
      object.render.toList ++ pieces.flatMap ('.' :: ·) := by
  induction pieces generalizing object with
  | nil => simp [members]
  | cons piece pieces ih =>
    have hstep : members object (piece :: pieces) =
        members (.member object (String.ofList piece)) pieces := rfl
    rw [hstep, ih]
    simp [render]

theorem members_append (object : Expr) (pieces pieces' : List (List Char)) :
    members object (pieces ++ pieces') = members (members object pieces) pieces' :=
  List.foldl_append

/-- A path is shown as the name it was made of. -/
theorem render_path (dotted : String) : (path dotted).render = dotted := by
  apply String.toList_injective
  show (members _ _).render.toList = _
  rw [toList_render_members, render, String.toList_ofList, Text.segments_flatMap]

theorem render_memberPath (object : Expr) (dotted : String) :
    (object.memberPath dotted).render = object.render ++ "." ++ dotted := by
  apply String.toList_injective
  show (members _ _).render.toList = _
  rw [toList_render_members, List.flatMap_cons, List.cons_append, Text.segments_flatMap]
  simp

/-- A path goes on where another one ends. -/
theorem path_append (a b : String) : path (a ++ "." ++ b) = (path a).memberPath b := by
  have hpieces : Text.segments '.' (a ++ "." ++ b).toList =
      ((Text.segments '.' a.toList).1, (Text.segments '.' a.toList).2 ++
        (Text.segments '.' b.toList).1 :: (Text.segments '.' b.toList).2) := by
    rw [← Text.segments_append_mark]
    simp
  rw [path, hpieces]
  exact members_append _ _ _

theorem path_of_notMem {name : String} (h : '.' ∉ name.toList) : path name = .ident name := by
  rw [path, Text.segments_of_notMem h]
  simp [members]

theorem memberPath_of_notMem {property : String} (h : '.' ∉ property.toList) (object : Expr) :
    object.memberPath property = .member object property := by
  rw [memberPath, Text.segments_of_notMem h]
  simp [members]

/-- The names in a path: as many properties as there are dots, none of them
    with a dot in it, and the same for the variable. -/
theorem exists_path_eq_foldl (dotted : String) : ∃ (root : String) (properties : List String),
    path dotted = properties.foldl .member (.ident root) ∧
      properties.length = dotted.toList.count '.' ∧
      ∀ name ∈ root :: properties, '.' ∉ name.toList := by
  refine ⟨String.ofList (Text.segments '.' dotted.toList).1,
    (Text.segments '.' dotted.toList).2.map String.ofList, ?_, ?_, ?_⟩
  · rw [List.foldl_map]
    rfl
  · rw [List.length_map, Text.length_segments]
  · intro name hname
    rw [← List.map_cons, List.mem_map] at hname
    obtain ⟨piece, hpiece, rfl⟩ := hname
    rw [String.toList_ofList]
    exact Text.mark_notMem_segments '.' dotted.toList piece hpiece

/-! ## Section 3: The laws of paths -/

/-- **Paths are dotted names.** For all names, whatever dots they have: a path
    is shown as its name, and a path from an object as the object, a dot and
    the name; a path can be made in two parts; it is a variable under one
    property for every dot, and no name in it has a dot; so no two names have
    the same path. -/
theorem path_and_memberPath_laws :
    (∀ a : String, (path a).render = a) ∧
    (∀ (object : Expr) (b : String), (object.memberPath b).render = object.render ++ "." ++ b) ∧
    (∀ a b : String, (path a).memberPath b = path (a ++ "." ++ b)) ∧
    (∀ a : String, ∃ (root : String) (properties : List String),
      path a = properties.foldl .member (.ident root) ∧
        properties.length = a.toList.count '.' ∧
        ∀ name ∈ root :: properties, '.' ∉ name.toList) ∧
    Function.Injective path := by
  refine ⟨render_path, render_memberPath, fun a b => (path_append a b).symm,
    exists_path_eq_foldl, ?_⟩
  -- The name can be read off the text of its path.
  intro a b h
  rw [← render_path a, h, render_path]

example : path ".a..b" =
    .member (.member (.member (.ident "") "a") "") "b" := by rfl

end Expr

end BlockFlow
