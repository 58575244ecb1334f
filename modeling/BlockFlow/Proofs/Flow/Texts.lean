import BlockFlow.Proofs.Flow.Canonical
import BlockFlow.Proofs.Lowering.Parts

/-! # Text arguments

    A text among the arguments of a block is read by a rule: `bool_true` and
    `bool_false` are the truth values, `box_x` is the box `x`, and every other
    text is itself. `Arg.StandsFor` states the rule.

    Decoding keeps to it with one exception: whatever follows `bool_` is taken
    for a truth value, and anything but `true` for the false one. A text such
    as `bool_maybe` is called a stray truth value here.

    - **Main statement** (`Arg.standsFor_argument?_iff`): at any depth of an
      argument, a text is read by the rule exactly if it is not stray, and a
      stray one becomes the false truth value. So two different texts become
      the same argument exactly if both are read as false.
    - `Arg.ofJson_stray` is an argument for which the rule fails. -/

namespace BlockFlow

/-! ## Section 1: The rule -/

/-- **What a text stands for.** -/
inductive Arg.StandsFor : String → Arg → Prop where
  /-- The true value, -/
  | yes : StandsFor "bool_true" (.literal (.bool true))
  /-- the false value, -/
  | no : StandsFor "bool_false" (.literal (.bool false))
  /-- a box, -/
  | box {name : String} : StandsFor ("box_" ++ name) (.box name)
  /-- and otherwise the text itself. -/
  | text {s : String} (hyes : s ≠ "bool_true") (hno : s ≠ "bool_false")
      (hbox : ∀ name, s ≠ "box_" ++ name) : StandsFor s (.literal (.string s))

/-- A text that begins like a truth value and is neither of the two. -/
def Text.IsStray (s : String) : Prop :=
  ∃ word, s = "bool_" ++ word ∧ word ≠ "true" ∧ word ≠ "false"

/-- A text that is read as false: the false value, or a stray one. -/
def Text.ReadsFalse (s : String) : Prop := ∃ word, s = "bool_" ++ word ∧ word ≠ "true"

/-- The part of a JSON argument at a place, which is given by a position among
    the arguments at each level. -/
def Json.argument? : Json → List Nat → Option Json
  | j, [] => some j
  | .list (.string _ :: .list args :: _), i :: places =>
    args[i]?.bind fun arg => argument? arg places
  | _, _ :: _ => none

/-- The part of an argument at a place. -/
def Arg.argument? : Arg → List Nat → Option Arg
  | arg, [] => some arg
  | .apply _ args, i :: places => args[i]?.bind fun arg => argument? arg places
  | _, _ :: _ => none

/-! ## Section 2: One text -/

theorem Text.eq_append_of_afterLead? {lead s rest : String}
    (h : Text.afterLead? lead s = some rest) : s = lead ++ rest := by
  obtain ⟨cs, hcs, rfl⟩ := Option.map_eq_some_iff.mp h
  rw [List.isPrefixOf?_eq_some_iff_append_eq] at hcs
  rw [← String.toList_inj, String.toList_append, String.toList_ofList, hcs]

theorem Text.ne_append_of_afterLead? {lead s : String} (h : Text.afterLead? lead s = none)
    (rest : String) : s ≠ lead ++ rest := by
  rintro rfl
  rw [Text.afterLead?_append] at h
  cases h

/-- **How a text is decoded**: by what it begins with. -/
theorem Arg.ofText_cases (s : String) :
    (∃ word, s = "bool_" ++ word ∧ ofText s = .literal (.bool (word == "true"))) ∨
    (∃ name, s = "box_" ++ name ∧ ofText s = .box name) ∨
    (∀ word, s ≠ "bool_" ++ word) ∧ (∀ name, s ≠ "box_" ++ name) ∧
      ofText s = .literal (.string s) := by
  cases hbool : Text.afterLead? boolLead s with
  | some word =>
    refine Or.inl ⟨word, Text.eq_append_of_afterLead? hbool, ?_⟩
    rw [ofText, hbool]
  | none =>
    cases hbox : Text.afterLead? boxLead s with
    | some name =>
      refine Or.inr (Or.inl ⟨name, Text.eq_append_of_afterLead? hbox, ?_⟩)
      rw [ofText, hbool, hbox]
    | none =>
      refine Or.inr (Or.inr ⟨Text.ne_append_of_afterLead? hbool,
        Text.ne_append_of_afterLead? hbox, ?_⟩)
      rw [ofText, hbool, hbox]

theorem Arg.ofText_bool (word : String) :
    ofText ("bool_" ++ word) = .literal (.bool (word == "true")) := by
  have hword : Text.afterLead? boolLead ("bool_" ++ word) = some word :=
    Text.afterLead?_append _ _
  rw [ofText, hword]

/-- The rule holds of a text unless it is stray. -/
theorem Arg.standsFor_ofText_iff {s : String} : StandsFor s (ofText s) ↔ ¬ Text.IsStray s := by
  constructor
  · rintro h ⟨word, rfl, hyes, hno⟩
    rw [ofText_bool, beq_false_of_ne hyes] at h
    -- Only one text stands for the false value.
    generalize hs : "bool_" ++ word = s at h
    cases h with
    | no => exact hno (String.append_right_inj _ |>.mp hs)
  · intro hstray
    rcases ofText_cases s with ⟨word, rfl, hs⟩ | ⟨name, rfl, hs⟩ | ⟨hbool, hbox, hs⟩
    · rw [hs]
      by_cases hyes : word = "true"
      · rw [hyes]
        exact .yes
      · have hno : word = "false" := by
          by_contra hno
          exact hstray ⟨word, rfl, hyes, hno⟩
        rw [hno]
        exact .no
    · rw [hs]
      exact .box
    · rw [hs]
      exact .text (hbool "true") (hbool "false") hbox

theorem Arg.ofText_of_readsFalse {s : String} (h : Text.ReadsFalse s) :
    ofText s = .literal (.bool false) := by
  obtain ⟨word, rfl, hyes⟩ := h
  rw [ofText_bool, beq_false_of_ne hyes]

theorem Text.IsStray.readsFalse {s : String} (h : Text.IsStray s) : Text.ReadsFalse s := by
  obtain ⟨word, hs, hyes, hno⟩ := h
  exact ⟨word, hs, hyes⟩

/-- Two texts become the same argument only if both are read as false. -/
theorem Arg.ofText_eq_iff {s s' : String} (hne : s ≠ s') :
    ofText s = ofText s' ↔ Text.ReadsFalse s ∧ Text.ReadsFalse s' := by
  constructor
  · intro h
    rcases ofText_cases s with ⟨word, rfl, hs⟩ | ⟨name, rfl, hs⟩ | ⟨hbool, hbox, hs⟩ <;>
      rcases ofText_cases s' with ⟨word', rfl, hs'⟩ | ⟨name', rfl, hs'⟩ | ⟨hbool', hbox', hs'⟩ <;>
      rw [hs, hs'] at h
    · have hwords : (word == "true") = (word' == "true") := by simpa using h
      by_cases hyes : word = "true"
      · have hyes' : word' = "true" := by simpa [hyes] using hwords.symm
        exact absurd (by rw [hyes, hyes']) hne
      · have hyes' : word' ≠ "true" := by simpa [hyes] using hwords.symm
        exact ⟨⟨word, rfl, hyes⟩, ⟨word', rfl, hyes'⟩⟩
    -- In all other cases the two texts are of different kinds, or the same text.
    · simp at h
    · simp at h
    · simp at h
    · exact absurd (by rw [Arg.box.inj h]) hne
    · simp at h
    · simp at h
    · simp at h
    · exact absurd (by simpa using h) hne
  · rintro ⟨h, h'⟩
    rw [ofText_of_readsFalse h, ofText_of_readsFalse h']

/-! ## Section 3: Texts inside arguments -/

theorem Arg.listOfJson_eq_mapM (owner : String) (items : List Json) :
    Arg.listOfJson owner items = items.mapM (Arg.ofJson owner) := by
  induction items with
  | nil => rfl
  | cons item items ih =>
    rw [List.mapM_cons, ← ih]
    rfl

/-- Only the arguments of an operation have places below them. -/
theorem Json.argument?_cons_eq_some {j part : Json} {i : Nat} {places : List Nat}
    (h : j.argument? (i :: places) = some part) :
    ∃ opcode args slots item, j = .list (.string opcode :: .list args :: slots) ∧
      args[i]? = some item ∧ item.argument? places = some part := by
  unfold Json.argument? at h
  split at h
  · next heq => cases heq
  · next opcode args slots _ _ heq =>
    cases heq
    obtain ⟨item, hitem, h⟩ := Option.bind_eq_some_iff.mp h
    exact ⟨opcode, args, slots, item, rfl, hitem, h⟩
  · cases h

/-- **Parts are decoded on their own**: what stands at a place of a decoded
    argument is decoded from what stands there in the JSON. -/
theorem Arg.exists_argument? {places : List Nat} {owner : String} {j part : Json} {arg : Arg}
    (h : Arg.ofJson owner j = .ok arg) (hpart : j.argument? places = some part) :
    ∃ owner' a, arg.argument? places = some a ∧ Arg.ofJson owner' part = .ok a := by
  induction places generalizing owner j arg with
  | nil =>
    cases hpart
    exact ⟨owner, arg, rfl, h⟩
  | cons i places ih =>
    obtain ⟨opcode, items, slots, item, rfl, hitem, hpart⟩ := Json.argument?_cons_eq_some hpart
    rw [Arg.ofJson, Arg.slotOfJson, Arg.listOfJson_eq_mapM] at h
    obtain ⟨args, hargs, rfl⟩ := exists_of_bind_return_eq_ok h
    obtain ⟨a, ha, hdecoded⟩ :=
      exists_getElem?_of_forall₂ (mapM_eq_ok_iff_forall₂.mp hargs) hitem
    obtain ⟨owner', a', ha', hpart⟩ := ih hdecoded hpart
    refine ⟨owner', a', ?_, hpart⟩
    rw [Arg.argument?, ha, Option.bind_some, ha']

/-- **Text arguments.** At any depth of an argument that is decoded, a text is
    read by the rule exactly if it is not stray, and a stray one is read as
    false. A text on its own is always decoded, and two different ones become
    the same argument exactly if both are read as false. -/
theorem Arg.standsFor_argument?_iff {owner : String} {j : Json} {arg : Arg} {places : List Nat}
    {s : String} (h : Arg.ofJson owner j = .ok arg) (hs : j.argument? places = some (.string s)) :
    (∃ a, arg.argument? places = some a ∧ (Arg.StandsFor s a ↔ ¬ Text.IsStray s) ∧
      (Text.IsStray s → a = .literal (.bool false))) ∧
    ∀ owner t t', t ≠ t' → ∃ a a', Arg.ofJson owner (.string t) = .ok a ∧
      Arg.ofJson owner (.string t') = .ok a' ∧
      (a = a' ↔ Text.ReadsFalse t ∧ Text.ReadsFalse t') := by
  constructor
  · obtain ⟨owner', a, ha, hdecoded⟩ := Arg.exists_argument? h hs
    cases hdecoded
    refine ⟨_, ha, Arg.standsFor_ofText_iff, ?_⟩
    intro hstray
    exact Arg.ofText_of_readsFalse hstray.readsFalse
  · intro owner t t' hne
    exact ⟨_, _, rfl, rfl, Arg.ofText_eq_iff hne⟩

/-- A box and a text with underscores inside an operation are read by the
    rule. -/
theorem Arg.standsFor_argument?_iff_nested :
    let j : Json := .list [.string "plus", .list [.null, .list [.string "less",
      .list [.string "box_box_x", .string "boolean_true"]]]]
    let arg : Arg := .apply "plus" [.null, .apply "less" [.box "box_x",
      .literal (.string "boolean_true")]]
    Arg.ofJson "print" j = .ok arg ∧ j.argument? [1, 1] = some (.string "boolean_true") ∧
      (∃ a, arg.argument? [1, 1] = some a ∧ Arg.StandsFor "boolean_true" a) ∧
      ∃ a a', Arg.ofJson "print" (.string "boolean_true") = .ok a ∧
        Arg.ofJson "print" (.string "bool_true") = .ok a' ∧ a ≠ a' := by
  intro j arg
  have harg : Arg.ofJson "print" j = .ok arg := rfl
  have hplace : j.argument? [1, 1] = some (.string "boolean_true") := rfl
  have hlead : ∀ word, "boolean_true" ≠ "bool_" ++ word :=
    Text.ne_append_of_afterLead? (by decide)
  obtain ⟨⟨a, ha, hrule, -⟩, hsame⟩ := Arg.standsFor_argument?_iff harg hplace
  obtain ⟨b, b', hb, hb', heq⟩ := hsame "print" "boolean_true" "bool_true" (by decide)
  refine ⟨harg, hplace, ⟨a, ha, hrule.mpr ?_⟩, b, b', hb, hb', ?_⟩
  · rintro ⟨word, hs, -⟩
    exact hlead word hs
  · intro h
    obtain ⟨⟨word, hs, -⟩, -⟩ := heq.mp h
    exact hlead word hs

/-- A stray truth value, alone and inside an operation, becomes the false
    value, for which another text stands. -/
theorem Arg.ofJson_stray :
    Arg.ofJson "print" (.string "bool_maybe") = .ok (.literal (.bool false)) ∧
    Arg.ofJson "print" (.list [.string "not", .list [.string "bool_maybe"]]) =
      .ok (.apply "not" [.literal (.bool false)]) ∧
    ¬ Arg.StandsFor "bool_maybe" (.literal (.bool false)) ∧
    Arg.ofJson "print" (.string "bool_maybe") = Arg.ofJson "print" (.string "bool_false") := by
  refine ⟨rfl, rfl, ?_, rfl⟩
  intro h
  generalize hs : "bool_maybe" = s at h
  cases h with
  | no => exact absurd hs (by decide)

end BlockFlow
