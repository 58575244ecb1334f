import BlockFlow.Proofs.Json.Written

/-! # No document is higher than its text nests

    The document of a text, sound or not, is built by a machine that keeps
    the open containers on a stack. `nesting` counts the brackets of the same
    text without building anything. Both count alike as long as the machine
    goes on: it stops at the first bracket that does not belong where it
    stands, and what is counted behind that place only adds to the count.

    - `FramesFit n frames` says that what the open containers hold so far is
      no higher than `n` when it is seen from the outermost one.
    - `Builder.Within n opened` is the invariant of the machine: so many
      containers are open, and everything fits.
    - One token keeps it up (`step_within`), hence so does a whole text
      (`foldl_step_within`), whatever text it is. -/

namespace BlockFlow.Json

/-! ## Section 1: The height of a node -/

mutual

/-- How many containers of a node stand inside each other. -/
def Node.height : Node → Nat
  | .list items _ => Node.itemsHeight items + 1
  | .object members _ => Node.membersHeight members + 1
  | .null | .bool _ | .number _ | .string _ | .unfit _ | .broken _ _ _ => 0

/-- The height of the highest item. -/
def Node.itemsHeight : List Node → Nat
  | [] => 0
  | item :: items => max item.height (Node.itemsHeight items)

/-- The height of the highest member. -/
def Node.membersHeight : List (Except Fault String × Node) → Nat
  | [] => 0
  | (_, value) :: members => max value.height (Node.membersHeight members)

end

namespace Node

theorem itemsHeight_le_iff {items : List Node} {n : Nat} :
    itemsHeight items ≤ n ↔ ∀ item ∈ items, item.height ≤ n := by
  induction items with
  | nil => simp [itemsHeight]
  | cons item items ih => simp [itemsHeight, ih]

theorem membersHeight_le_iff {members : List (Except Fault String × Node)} {n : Nat} :
    membersHeight members ≤ n ↔ ∀ member ∈ members, member.2.height ≤ n := by
  induction members with
  | nil => simp [membersHeight]
  | cons member members ih => simp [membersHeight, ih]

@[simp] theorem itemsHeight_reverse (items : List Node) :
    itemsHeight items.reverse = itemsHeight items :=
  eq_of_forall_ge_iff fun n => by simp [itemsHeight_le_iff]

@[simp] theorem membersHeight_reverse (members : List (Except Fault String × Node)) :
    membersHeight members.reverse = membersHeight members :=
  eq_of_forall_ge_iff fun n => by simp [membersHeight_le_iff]

end Node

/-! ## Section 2: Open containers -/

/-- What the open containers hold so far, with those around them, is no higher
    than `n`. -/
def FramesFit (n : Nat) : List Frame → Prop
  | [] => True
  | .list items :: frames =>
    Node.itemsHeight items + 1 + frames.length ≤ n ∧ FramesFit n frames
  | .object members _ :: frames =>
    Node.membersHeight members + 1 + frames.length ≤ n ∧ FramesFit n frames

/-- Closing everything around a node gives no more than the sum of the two. -/
theorem height_plug_le {n : Nat} : ∀ {frames : List Frame} {node : Node},
    node.height + frames.length ≤ n → FramesFit n frames → (plug node frames).height ≤ n
  | [], _, h, _ => h
  | .list items :: frames, node, h, ⟨hitems, hframes⟩ => by
    rw [List.length_cons] at h
    rw [plug]
    refine height_plug_le ?_ hframes
    rw [Node.height, Node.itemsHeight_reverse, Node.itemsHeight]
    omega
  | .object members key :: frames, node, h, ⟨hmembers, hframes⟩ => by
    rw [List.length_cons] at h
    rw [plug]
    refine height_plug_le ?_ hframes
    rw [Node.height, Node.membersHeight_reverse, Node.membersHeight]
    omega

/-! ## Section 3: One token -/

/-- How many containers are open behind a token, if so many are open before. -/
def Token.openedAfter (opened : Nat) : Token → Nat
  | .openList | .openObject => opened + 1
  | .closeList | .closeObject => opened - 1
  | _ => opened

/-- The count behind a token is part of the count over all tokens. -/
theorem deepest_openedAfter_le (opened : Nat) (token : Token) (more : List Token) :
    deepest (token.openedAfter opened) more ≤ deepest opened (token :: more) := by
  cases token with
  | closeList | closeObject => exact Nat.le_max_right _ _
  | _ => exact Nat.le_refl _

namespace Builder

/-- **The invariant of the machine**: so many containers are open, and nothing
    is higher than `n`. -/
def Within (n opened : Nat) : Builder → Prop
  | .value frames => frames.length = opened ∧ FramesFit n frames
  | .firstItem frames | .firstKey frames => frames.length + 1 = opened ∧ FramesFit n frames
  | .nextItem items frames | .afterItem items frames =>
    frames.length + 1 = opened ∧ FramesFit n (.list items :: frames)
  | .nextKey members frames | .afterMember members frames =>
    frames.length + 1 = opened ∧ FramesFit n (.object members (.ok "") :: frames)
  | .colon members key frames =>
    frames.length + 1 = opened ∧ FramesFit n (.object members key :: frames)
  | .done document => document.root.height ≤ n
  | .stopped root => root.height ≤ n

variable {n : Nat} {frames : List Frame}

theorem deliver_within {node : Node} (h : node.height + frames.length ≤ n)
    (hframes : FramesFit n frames) : (deliver node frames).Within n frames.length := by
  match frames, hframes with
  | [], _ => exact h
  | .list items :: frames, ⟨hitems, hframes⟩ =>
    rw [List.length_cons] at h
    refine ⟨rfl, ?_, hframes⟩
    rw [Node.itemsHeight]
    omega
  | .object members key :: frames, ⟨hmembers, hframes⟩ =>
    rw [List.length_cons] at h
    refine ⟨rfl, ?_, hframes⟩
    rw [Node.membersHeight]
    omega

/-- A machine that has stopped has nothing open any more. -/
theorem stop_within {node : Node} (h : node.height + frames.length ≤ n)
    (hframes : FramesFit n frames) (opened : Nat) : (stop node frames).Within n opened :=
  height_plug_le h hframes

theorem takeValue_within (hroom : frames.length ≤ n) (hframes : FramesFit n frames)
    (token : Token) :
    (takeValue frames token).Within n (token.openedAfter frames.length) := by
  have hleaf : ∀ {node : Node}, node.height = 0 → node.height + frames.length ≤ n := by
    intro node h
    rw [h, Nat.zero_add]
    exact hroom
  cases token with
  | openList | openObject => exact ⟨rfl, hframes⟩
  | null | bool => exact deliver_within (hleaf rfl) hframes
  | number value => cases value <;> exact deliver_within (hleaf rfl) hframes
  | string value => cases value <;> exact deliver_within (hleaf rfl) hframes
  | broken | closeList | closeObject | comma | colon | stray =>
    exact stop_within (hleaf rfl) hframes _

theorem takeKey_within {members : List (Except Fault String × Node)}
    (hmembers : Node.membersHeight members + 1 + frames.length ≤ n) (hframes : FramesFit n frames)
    {atBrace : Builder} (hbrace : atBrace.Within n frames.length) (token : Token) :
    (takeKey members frames atBrace token).Within n (token.openedAfter (frames.length + 1)) := by
  have hstop : ∀ (ending : Ending) (opened : Nat),
      (stop (.object members.reverse ending) frames).Within n opened := by
    intro ending opened
    refine stop_within ?_ hframes opened
    rw [Node.height, Node.membersHeight_reverse]
    omega
  cases token with
  | string key => exact ⟨rfl, hmembers, hframes⟩
  | closeObject => exact hbrace
  | broken begun reading passing => cases begun <;> exact hstop _ _
  | _ => exact hstop _ _

/-- A list or object that ends, soundly or not, with everything around it. -/
theorem list_within {items : List Node} (h : FramesFit n (.list items :: frames))
    (ending : Ending) : (Node.list items.reverse ending).height + frames.length ≤ n := by
  rw [Node.height, Node.itemsHeight_reverse]
  exact h.1

theorem object_within {members : List (Except Fault String × Node)} {key : Except Fault String}
    (h : FramesFit n (.object members key :: frames)) (ending : Ending) :
    (Node.object members.reverse ending).height + frames.length ≤ n := by
  rw [Node.height, Node.membersHeight_reverse]
  exact h.1

/-- **One token keeps up the invariant**, if there is room for the container
    that it may open. -/
theorem step_within {opened : Nat} {builder : Builder} (h : builder.Within n opened)
    (hroom : opened ≤ n) (token : Token) :
    (builder.step token).Within n (token.openedAfter opened) := by
  cases builder with
  | value frames =>
    obtain ⟨rfl, hframes⟩ := h
    exact takeValue_within hroom hframes token
  | firstItem frames =>
    obtain ⟨rfl, hframes⟩ := h
    have hlist : FramesFit n (.list [] :: frames) := ⟨by rw [Node.itemsHeight]; omega, hframes⟩
    by_cases hclose : token = .closeList
    · subst hclose
      exact deliver_within (list_within hlist .closed) hframes
    · rw [awaits_firstItem _ token hclose]
      exact takeValue_within hroom hlist token
  | nextItem items frames =>
    obtain ⟨rfl, hlist⟩ := h
    by_cases hclose : token = .closeList
    · subst hclose
      exact stop_within (list_within hlist .commaClosed) hlist.2 _
    · rw [awaits_nextItem _ _ token hclose]
      exact takeValue_within hroom hlist token
  | afterItem items frames =>
    obtain ⟨rfl, hlist⟩ := h
    cases token with
    | comma => exact ⟨rfl, hlist⟩
    | closeList => exact deliver_within (list_within hlist .closed) hlist.2
    | _ => exact stop_within (list_within hlist .noComma) hlist.2 _
  | firstKey frames =>
    obtain ⟨rfl, hframes⟩ := h
    have hobject : FramesFit n (.object [] (.ok "") :: frames) :=
      ⟨by rw [Node.membersHeight]; omega, hframes⟩
    exact takeKey_within hobject.1 hframes
      (deliver_within (object_within hobject .closed) hframes) token
  | nextKey members frames =>
    obtain ⟨rfl, hobject⟩ := h
    exact takeKey_within hobject.1 hobject.2
      (stop_within (object_within hobject .commaClosed) hobject.2 _) token
  | colon members key frames =>
    obtain ⟨rfl, hobject⟩ := h
    -- The missing value stands inside the object.
    have hreject : ∀ opened,
        (reject .noColon (.object members key :: frames)).Within n opened := by
      intro opened
      refine stop_within ?_ hobject opened
      rw [Node.height, Nat.zero_add]
      exact hroom
    cases token with
    | colon => exact ⟨rfl, hobject⟩
    | _ => exact hreject _
  | afterMember members frames =>
    obtain ⟨rfl, hobject⟩ := h
    cases token with
    | comma => exact ⟨rfl, hobject⟩
    | closeObject => exact deliver_within (object_within hobject .closed) hobject.2
    | _ => exact stop_within (object_within hobject .noComma) hobject.2 _
  | done document => exact h
  | stopped root => exact h

/-! ## Section 4: Whole texts -/

/-- **A row of tokens keeps up the invariant**, if there is room for as many
    containers as it opens. -/
theorem foldl_step_within {opened : Nat} {tokens : List Token} {builder : Builder}
    (h : builder.Within n opened) (hroom : deepest opened tokens ≤ n) :
    ∃ opened' ≤ n, (tokens.foldl step builder).Within n opened' := by
  induction tokens generalizing opened builder with
  | nil => exact ⟨opened, hroom, h⟩
  | cons token tokens ih =>
    have hopened : opened ≤ n := Nat.le_trans (le_deepest opened _) hroom
    exact ih (step_within h hopened token)
      (Nat.le_trans (deepest_openedAfter_le opened token tokens) hroom)

theorem height_finish_le {opened : Nat} {builder : Builder} (h : builder.Within n opened)
    (hroom : opened ≤ n) : builder.finish.root.height ≤ n := by
  cases builder with
  | value frames =>
    obtain ⟨rfl, hframes⟩ := h
    refine height_plug_le ?_ hframes
    rw [Node.height, Nat.zero_add]
    exact hroom
  | firstItem frames =>
    obtain ⟨rfl, hframes⟩ := h
    refine height_plug_le ?_ hframes
    rw [Node.height, Node.itemsHeight]
    omega
  | nextItem items frames | afterItem items frames =>
    exact height_plug_le (list_within h.2 _) h.2.2
  | firstKey frames =>
    obtain ⟨rfl, hframes⟩ := h
    refine height_plug_le ?_ hframes
    rw [Node.height, Node.membersHeight]
    omega
  | nextKey members frames | afterMember members frames =>
    exact height_plug_le (object_within h.2 _) h.2.2
  | colon members key frames =>
    obtain ⟨rfl, hobject⟩ := h
    refine height_plug_le ?_ hobject
    rw [Node.height, Nat.zero_add]
    exact hroom
  | done document => exact h
  | stopped root => exact h

end Builder

/-- **A document is no higher than its text nests**, whatever the text. -/
theorem Document.height_ofText_le (text : String) :
    (Document.ofText text).root.height ≤ nesting text := by
  have hstart : (Builder.value []).Within (nesting text) 0 := ⟨rfl, trivial⟩
  obtain ⟨opened, hroom, hwithin⟩ := Builder.foldl_step_within hstart (Nat.le_refl _)
  exact Builder.height_finish_le hwithin hroom

end BlockFlow.Json
