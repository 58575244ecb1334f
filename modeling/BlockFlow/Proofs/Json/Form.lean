import BlockFlow.Proofs.Json.Scalar

/-! # Forms

    A form is a JSON text up to its blanks: a tree of lists and objects whose
    scalars and keys are literals, as they are written.

    - The lexemes of a form are its marks and literals from left to right. A
      text spells a form if it consists of these lexemes and of blanks between
      them, before the first and behind the last (`Spaced`).
    - However the blanks are put, the document of the text is the node of the
      form (`ofText_of_spaced`). The builder is followed through the form; a
      scalar is cut off by what follows it, which is a delimiter. -/

namespace BlockFlow.Json

/-! ## Section 1: Forms and their texts -/

/-- A scalar as it is written. -/
structure Scalar where
  /-- Its text. -/
  text : List Char
  /-- The text is of the grammar. -/
  valid : IsScalar text

/-- A JSON text up to its blanks. -/
inductive Form where
  /-- A scalar. -/
  | scalar (s : Scalar)
  /-- A list. -/
  | list (items : List Form)
  /-- An object. -/
  | object (members : List (Literal × Form))

mutual

/-- The marks and literals of a form. -/
def Form.lexemes : Form → List (List Char)
  | .scalar s => [s.text]
  | .list [] => [['['], [']']]
  | .list (item :: items) => ['['] :: item.lexemes ++ Form.itemLexemes items
  | .object [] => [['\x7b'], ['\x7d']]
  | .object ((key, value) :: members) =>
    ['\x7b'] :: key.text :: [':'] :: value.lexemes ++ Form.memberLexemes members

/-- The marks and literals that follow the first item of a list. -/
def Form.itemLexemes : List Form → List (List Char)
  | [] => [[']']]
  | item :: items => [','] :: item.lexemes ++ Form.itemLexemes items

/-- The marks and literals that follow the first member of an object. -/
def Form.memberLexemes : List (Literal × Form) → List (List Char)
  | [] => [['\x7d']]
  | (key, value) :: members =>
    [','] :: key.text :: [':'] :: value.lexemes ++ Form.memberLexemes members

end

/-- **Lexemes with blanks around them**, as many as one likes. -/
inductive Spaced : List (List Char) → List Char → Prop where
  /-- Behind the last lexeme. -/
  | nil {blanks : List Char} (h : ∀ c ∈ blanks, IsBlank c) : Spaced [] blanks
  /-- Before a lexeme. -/
  | cons {blanks lexeme rest : List Char} {lexemes : List (List Char)}
      (h : ∀ c ∈ blanks, IsBlank c) (hrest : Spaced lexemes rest) :
      Spaced (lexeme :: lexemes) (blanks ++ (lexeme ++ rest))

theorem Spaced.exists_rest {lexeme text : List Char} {lexemes : List (List Char)}
    (h : Spaced (lexeme :: lexemes) text) :
    ∃ rest, Spaced lexemes rest ∧ tokens text = tokens (lexeme ++ rest) := by
  cases h with
  | cons h hrest => exact ⟨_, hrest, tokens_blanks h _⟩

/-- Blanks are no tokens. -/
theorem Spaced.tokens_eq_nil {text : List Char} (h : Spaced [] text) : tokens text = [] := by
  cases h with
  | nil h =>
    have htokens := tokens_blanks h []
    rwa [List.append_nil] at htokens

/-- More blanks before the first lexeme. -/
theorem Spaced.blanks_append {blanks rest : List Char} {lexemes : List (List Char)}
    (h : ∀ c ∈ blanks, IsBlank c) (hrest : Spaced lexemes rest) :
    Spaced lexemes (blanks ++ rest) := by
  cases hrest with
  | nil h' => exact .nil (List.forall_mem_append.mpr ⟨h, h'⟩)
  | cons h' hrest =>
    rw [← List.append_assoc]
    exact .cons (List.forall_mem_append.mpr ⟨h, h'⟩) hrest

/-- No blanks before the first lexeme. -/
theorem Spaced.lexeme_append {rest : List Char} {lexemes : List (List Char)}
    (lexeme : List Char) (hrest : Spaced lexemes rest) :
    Spaced (lexeme :: lexemes) (lexeme ++ rest) :=
  .cons (List.forall_mem_nil _) hrest

/-- The same blanks before every lexeme. -/
theorem spaced_of_eq_flatMap {blanks text : List Char} {lexemes : List (List Char)}
    (h : ∀ c ∈ blanks, IsBlank c) (htext : text = lexemes.flatMap (blanks ++ ·)) :
    Spaced lexemes text := by
  subst htext
  induction lexemes with
  | nil => exact .nil (List.forall_mem_nil _)
  | cons lexeme lexemes ih =>
    rw [List.flatMap_cons, List.append_assoc]
    exact .cons h ih

/-- What follows a value: nothing, or a mark that can extend no scalar. -/
def Closing (lexemes : List (List Char)) : Prop :=
  ∀ lexeme ∈ lexemes.head?, ∃ c, IsDelimiter c ∧ lexeme = [c]

theorem delimited_blanks {blanks : List Char} (h : ∀ c ∈ blanks, IsBlank c) {c : Char}
    (hc : IsDelimiter c) (rest : List Char) : Delimited (blanks ++ c :: rest) := by
  intro d hd
  cases blanks with
  | nil =>
    obtain rfl := Option.mem_some.mp hd
    exact hc
  | cons blank blanks =>
    obtain rfl := Option.mem_some.mp hd
    exact .inl (h _ List.mem_cons_self)

theorem Spaced.delimited {lexemes : List (List Char)} {rest : List Char} (h : Spaced lexemes rest)
    (hclosing : Closing lexemes) : Delimited rest := by
  cases h with
  | nil h =>
    intro c hc
    exact .inl (h c (List.mem_of_mem_head? hc))
  | cons h hrest =>
    obtain ⟨c, hc, rfl⟩ := hclosing _ rfl
    exact delimited_blanks h hc _

theorem closing_itemLexemes (items : List Form) (more : List (List Char)) :
    Closing (Form.itemLexemes items ++ more) := by
  intro lexeme hlexeme
  cases items with
  | nil =>
    rw [Form.itemLexemes] at hlexeme
    exact ⟨']', .inr (.inr (.inl rfl)), (Option.some.inj hlexeme).symm⟩
  | cons item items =>
    rw [Form.itemLexemes] at hlexeme
    exact ⟨',', .inr (.inl rfl), (Option.some.inj hlexeme).symm⟩

theorem closing_memberLexemes (members : List (Literal × Form)) (more : List (List Char)) :
    Closing (Form.memberLexemes members ++ more) := by
  intro lexeme hlexeme
  cases members with
  | nil =>
    rw [Form.memberLexemes] at hlexeme
    exact ⟨'\x7d', .inr (.inr (.inr rfl)), (Option.some.inj hlexeme).symm⟩
  | cons member members =>
    rw [Form.memberLexemes] at hlexeme
    exact ⟨',', .inr (.inl rfl), (Option.some.inj hlexeme).symm⟩

/-! ## Section 2: The document of a form -/

/-- The node of a scalar. -/
def Scalar.node (s : Scalar) : Node := (Document.ofText (String.ofList s.text)).root

theorem Scalar.node_eq_of_leaf {s : Scalar} {token : Token} {content : Node}
    (hleaf : Leaf token content)
    (htokens : ∀ rest, Delimited rest → tokens (s.text ++ rest) = token :: tokens rest) :
    s.node = content := by
  have hself := htokens [] (by simp [Delimited])
  rw [List.append_nil] at hself
  rw [Scalar.node, Document.ofText, String.toList_ofList, hself]
  show (((Builder.value []).step token).finish).root = content
  rw [hleaf.step_value]
  rfl

theorem Scalar.exists_leaf (s : Scalar) :
    ∃ token, Leaf token s.node ∧
      ∀ rest, Delimited rest → tokens (s.text ++ rest) = token :: tokens rest := by
  obtain ⟨token, content, hleaf, htokens⟩ := s.valid.exists_leaf
  rw [Scalar.node_eq_of_leaf hleaf htokens]
  exact ⟨token, hleaf, htokens⟩

mutual

/-- The node of a form. -/
def Form.node : Form → Node
  | .scalar s => s.node
  | .list items => .list (Form.itemNodes items) .closed
  | .object members => .object (Form.memberNodes members) .closed

/-- The nodes of the items of a list. -/
def Form.itemNodes : List Form → List Node
  | [] => []
  | item :: items => item.node :: Form.itemNodes items

/-- The nodes of the members of an object. -/
def Form.memberNodes : List (Literal × Form) → List (Except Fault String × Node)
  | [] => []
  | (key, value) :: members => (key.reread, value.node) :: Form.memberNodes members

end

theorem Form.memberNodes_eq_map (members : List (Literal × Form)) :
    Form.memberNodes members = members.map fun member => (member.1.reread, member.2.node) := by
  induction members with
  | nil => rw [Form.memberNodes, List.map_nil]
  | cons member members ih => rw [Form.memberNodes, ih, List.map_cons]

namespace Builder

/-- A value is due, to be delivered to the frames. A list may also end. -/
def Awaits (builder : Builder) (frames : List Frame) : Prop :=
  ∀ token, token ≠ .closeList → builder.step token = (value frames).step token

theorem awaits_value (frames : List Frame) : (value frames).Awaits frames := fun _ _ => rfl

theorem awaits_firstItem (frames : List Frame) :
    (firstItem frames).Awaits (.list [] :: frames) := by
  intro token h
  cases token with
  | closeList => exact absurd rfl h
  | _ => rfl

theorem awaits_nextItem (items : List Node) (frames : List Frame) :
    (nextItem items frames).Awaits (.list items :: frames) := by
  intro token h
  cases token with
  | closeList => exact absurd rfl h
  | _ => rfl

/-- What the builder makes of a text from a given state on. -/
def run (builder : Builder) (text : List Char) : Builder := (tokens text).foldl step builder

end Builder

open Builder (Awaits run deliver)

/-- A mark or a key is one step of the builder. -/
theorem Spaced.exists_step {lexeme text : List Char} {lexemes : List (List Char)} {token : Token}
    (h : Spaced (lexeme :: lexemes) text)
    (hlexeme : ∀ rest, tokens (lexeme ++ rest) = token :: tokens rest) :
    ∃ rest, Spaced lexemes rest ∧
      ∀ builder : Builder, builder.run text = (builder.step token).run rest := by
  obtain ⟨rest, hrest, heq⟩ := h.exists_rest
  refine ⟨rest, hrest, fun builder => ?_⟩
  rw [run, heq, hlexeme]
  rfl

-- What follows a first item begins with a comma or a bracket, so a value can
-- always tell where it ends.
mutual

/-- A form is followed to the end of its last lexeme, where its node is
    delivered. -/
theorem Form.run_spaced :
    ∀ (form : Form) {more : List (List Char)} {text : List Char},
      Spaced (form.lexemes ++ more) text → Closing more →
        ∃ rest, Spaced more rest ∧ ∀ builder frames, Awaits builder frames →
          builder.run text = (deliver form.node frames).run rest
  | .scalar s, more, text, h, hclosing => by
    -- Only a scalar needs what follows it, to be cut off there.
    obtain ⟨token, hleaf, htokens⟩ := s.exists_leaf
    rw [Form.lexemes, List.singleton_append] at h
    obtain ⟨rest, hrest, heq⟩ := h.exists_rest
    refine ⟨rest, hrest, fun builder frames hawaits => ?_⟩
    rw [run, heq, htokens rest (hrest.delimited hclosing), List.foldl_cons,
      hawaits token hleaf.ne_closeList, hleaf.step_value, Form.node]
    rfl
  | .list [], more, text, h, _ => by
    rw [Form.lexemes] at h
    obtain ⟨inside, h, hopen⟩ := h.exists_step tokens_openList
    obtain ⟨rest, hrest, hclose⟩ := h.exists_step tokens_closeList
    refine ⟨rest, hrest, fun builder frames hawaits => ?_⟩
    rw [hopen, hawaits _ Token.noConfusion, hclose, Form.node, Form.itemNodes]
    rfl
  | .list (item :: items), more, text, h, _ => by
    simp only [Form.lexemes, List.cons_append, List.append_assoc] at h
    obtain ⟨inside, h, hopen⟩ := h.exists_step tokens_openList
    obtain ⟨behind, h, hitem⟩ := Form.run_spaced item h (closing_itemLexemes items more)
    obtain ⟨rest, hrest, hitems⟩ := Form.run_items items h
    refine ⟨rest, hrest, fun builder frames hawaits => ?_⟩
    rw [hopen, hawaits _ Token.noConfusion]
    -- The first item is delivered to a list without items.
    show (Builder.firstItem frames).run inside = _
    rw [hitem _ _ (Builder.awaits_firstItem frames)]
    show (Builder.afterItem [item.node] frames).run behind = _
    rw [hitems, Form.node, Form.itemNodes]
    rfl
  | .object [], more, text, h, _ => by
    rw [Form.lexemes] at h
    obtain ⟨inside, h, hopen⟩ := h.exists_step tokens_openObject
    obtain ⟨rest, hrest, hclose⟩ := h.exists_step tokens_closeObject
    refine ⟨rest, hrest, fun builder frames hawaits => ?_⟩
    rw [hopen, hawaits _ Token.noConfusion, hclose, Form.node, Form.memberNodes]
    rfl
  | .object ((key, value) :: members), more, text, h, _ => by
    simp only [Form.lexemes, List.cons_append, List.append_assoc] at h
    obtain ⟨inside, h, hopen⟩ := h.exists_step tokens_openObject
    obtain ⟨beforeColon, h, hkey⟩ := h.exists_step key.tokens_text
    obtain ⟨afterColon, h, hcolon⟩ := h.exists_step tokens_colon
    obtain ⟨behind, h, hvalue⟩ := Form.run_spaced value h (closing_memberLexemes members more)
    obtain ⟨rest, hrest, hmembers⟩ := Form.run_members members h
    refine ⟨rest, hrest, fun builder frames hawaits => ?_⟩
    rw [hopen, hawaits _ Token.noConfusion, hkey, hcolon]
    -- The first value is delivered to an object without members.
    show (Builder.value (.object [] key.reread :: frames)).run afterColon = _
    rw [hvalue _ _ (Builder.awaits_value _)]
    show (Builder.afterMember [(key.reread, value.node)] frames).run behind = _
    rw [hmembers, Form.node, Form.memberNodes]
    rfl

/-- What follows the first item completes the list. -/
theorem Form.run_items :
    ∀ (items : List Form) {more : List (List Char)} {text : List Char},
      Spaced (Form.itemLexemes items ++ more) text →
        ∃ rest, Spaced more rest ∧ ∀ before frames,
          (Builder.afterItem before frames).run text =
            (deliver (.list (before.reverse ++ Form.itemNodes items) .closed) frames).run rest
  | [], more, text, h => by
    rw [Form.itemLexemes] at h
    obtain ⟨rest, hrest, hclose⟩ := h.exists_step tokens_closeList
    refine ⟨rest, hrest, fun before frames => ?_⟩
    rw [hclose, Form.itemNodes, List.append_nil]
    rfl
  | item :: items, more, text, h => by
    simp only [Form.itemLexemes, List.cons_append, List.append_assoc] at h
    obtain ⟨inside, h, hcomma⟩ := h.exists_step tokens_comma
    obtain ⟨behind, h, hitem⟩ := Form.run_spaced item h (closing_itemLexemes items more)
    obtain ⟨rest, hrest, hitems⟩ := Form.run_items items h
    refine ⟨rest, hrest, fun before frames => ?_⟩
    rw [hcomma]
    show (Builder.nextItem before frames).run inside = _
    rw [hitem _ _ (Builder.awaits_nextItem before frames)]
    show (Builder.afterItem (item.node :: before) frames).run behind = _
    rw [hitems, Form.itemNodes, List.reverse_cons, List.append_assoc, List.singleton_append]

/-- What follows the first member completes the object. -/
theorem Form.run_members :
    ∀ (members : List (Literal × Form)) {more : List (List Char)} {text : List Char},
      Spaced (Form.memberLexemes members ++ more) text →
        ∃ rest, Spaced more rest ∧ ∀ before frames,
          (Builder.afterMember before frames).run text =
            (deliver (.object (before.reverse ++ Form.memberNodes members) .closed) frames).run rest
  | [], more, text, h => by
    rw [Form.memberLexemes] at h
    obtain ⟨rest, hrest, hclose⟩ := h.exists_step tokens_closeObject
    refine ⟨rest, hrest, fun before frames => ?_⟩
    rw [hclose, Form.memberNodes, List.append_nil]
    rfl
  | (key, value) :: members, more, text, h => by
    simp only [Form.memberLexemes, List.cons_append, List.append_assoc] at h
    obtain ⟨inside, h, hcomma⟩ := h.exists_step tokens_comma
    obtain ⟨beforeColon, h, hkey⟩ := h.exists_step key.tokens_text
    obtain ⟨afterColon, h, hcolon⟩ := h.exists_step tokens_colon
    obtain ⟨behind, h, hvalue⟩ := Form.run_spaced value h (closing_memberLexemes members more)
    obtain ⟨rest, hrest, hmembers⟩ := Form.run_members members h
    refine ⟨rest, hrest, fun before frames => ?_⟩
    rw [hcomma, hkey, hcolon]
    show (Builder.value (.object before key.reread :: frames)).run afterColon = _
    rw [hvalue _ _ (Builder.awaits_value _)]
    show (Builder.afterMember ((key.reread, value.node) :: before) frames).run behind = _
    rw [hmembers, Form.memberNodes, List.reverse_cons, List.append_assoc, List.singleton_append]

end

/-- A form with nothing behind it is delivered. -/
theorem Form.run_alone {form : Form} {text : List Char} (h : Spaced form.lexemes text)
    {builder : Builder} {frames : List Frame} (hawaits : Awaits builder frames) :
    builder.run text = deliver form.node frames := by
  rw [← List.append_nil form.lexemes] at h
  obtain ⟨rest, hrest, hrun⟩ := form.run_spaced h (by simp [Closing])
  rw [hrun _ _ hawaits, run, hrest.tokens_eq_nil]
  rfl

/-- **A text holds the form that it spells**, wherever its blanks are. -/
theorem ofText_of_spaced {form : Form} {text : String} (h : Spaced form.lexemes text.toList) :
    Document.ofText text = ⟨form.node, false⟩ := by
  show ((Builder.value []).run text.toList).finish = _
  rw [Form.run_alone h (Builder.awaits_value [])]
  rfl

end BlockFlow.Json
