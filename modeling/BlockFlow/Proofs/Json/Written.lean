import BlockFlow.Proofs.Json.Form

/-! # Written texts

    What becomes of a value that was written as text, in any style that puts
    nothing but blanks between the tokens.

    - The text has the tokens of the value (`tokens_written`).
    - The text spells the form of the value (`spaced_written`), so its document
      holds the value and nothing else (`ofText_written`).
    - The containers nest in the text as they do in the value
      (`nesting_written`).

    So all styles read alike. -/

namespace BlockFlow.Json

/-! ## Section 1: Tokens -/

mutual

/-- The tokens of a value. -/
def valueTokens : Json → List Token
  | .null => [.null]
  | .bool b => [.bool b]
  | .number n => [.number (reread n)]
  | .string s => [.string (.ok s)]
  | .list [] => [.openList, .closeList]
  | .list (item :: items) => .openList :: valueTokens item ++ itemTokens items
  | .object [] => [.openObject, .closeObject]
  | .object ((key, value) :: members) =>
    .openObject :: .string (.ok key) :: .colon :: valueTokens value ++ memberTokens members

/-- The tokens that follow the first item of a list. -/
def itemTokens : List Json → List Token
  | [] => [.closeList]
  | item :: items => .comma :: valueTokens item ++ itemTokens items

/-- The tokens that follow the first member of an object. -/
def memberTokens : List (String × Json) → List Token
  | [] => [.closeObject]
  | (key, value) :: members =>
    .comma :: .string (.ok key) :: .colon :: valueTokens value ++ memberTokens members

end

/-- A style that puts nothing but blanks between the tokens. -/
structure Style.Blank (style : Style) : Prop where
  /-- Line breaks are blank. -/
  lineBreak : ∀ depth, ∀ c ∈ style.lineBreak depth, IsBlank c
  /-- What stands behind a colon is blank. -/
  afterColon : ∀ c ∈ style.afterColon, IsBlank c

theorem Style.compact_blank : Style.compact.Blank where
  lineBreak _ := List.forall_mem_nil _
  afterColon := List.forall_mem_nil _

theorem Style.indented_blank : Style.indented.Blank where
  lineBreak depth := by
    intro c hc
    rcases List.mem_cons.mp hc with rfl | hc
    · exact .inr (.inl rfl)
    · exact .inl (List.eq_of_mem_replicate hc)
  afterColon := List.forall_mem_singleton.mpr (.inl rfl)

section Written

variable {style : Style} (hstyle : style.Blank)

include hstyle

theorem delimited_writeItems (depth : Nat) (items : List Json) (rest : List Char) :
    Delimited (writeItems style depth items ++ rest) := by
  cases items with
  | nil =>
    rw [writeItems, List.append_assoc]
    exact delimited_blanks (hstyle.lineBreak depth) (.inr (.inr (.inl rfl))) rest
  | cons item items =>
    rw [writeItems]
    exact delimited_blanks (List.forall_mem_nil _) (.inr (.inl rfl)) _

theorem delimited_writeMembers (depth : Nat) (members : List (String × Json)) (rest : List Char) :
    Delimited (writeMembers style depth members ++ rest) := by
  cases members with
  | nil =>
    rw [writeMembers, List.append_assoc]
    exact delimited_blanks (hstyle.lineBreak depth) (.inr (.inr (.inr rfl))) rest
  | cons member members =>
    rw [writeMembers]
    exact delimited_blanks (List.forall_mem_nil _) (.inr (.inl rfl)) _

-- The text behind a first item begins with a delimiter and ends with a
-- bracket, so only values need to know what follows them.
mutual

/-- **A written value has its own tokens**, where the text is delimited. -/
theorem tokens_write (depth : Nat) :
    ∀ (j : Json) {rest : List Char}, Delimited rest →
      tokens (write style depth j ++ rest) = valueTokens j ++ tokens rest
  | .null, rest, _ => by
    rw [write, tokens_null, valueTokens, List.singleton_append]
  | .bool b, rest, _ => by
    rw [write, tokens_bool, valueTokens, List.singleton_append]
  | .number n, rest, hrest => by
    rw [write, tokens_numeral n hrest, valueTokens, List.singleton_append]
  | .string s, rest, _ => by
    rw [write, tokens_stringText, valueTokens, List.singleton_append]
  | .list [], rest, _ => by
    rw [write]
    show tokens ('[' :: ']' :: rest) = _
    rw [tokens_openList, tokens_closeList, valueTokens]
    rfl
  | .list (item :: items), rest, _ => by
    have hitem := tokens_write (depth + 1) item (delimited_writeItems hstyle depth items rest)
    rw [write]
    simp only [List.cons_append, List.append_assoc]
    rw [tokens_openList, tokens_blanks (hstyle.lineBreak _), hitem, tokens_writeItems depth items]
    simp only [valueTokens, List.cons_append, List.append_assoc]
  | .object [], rest, _ => by
    rw [write]
    show tokens ('\x7b' :: '\x7d' :: rest) = _
    rw [tokens_openObject, tokens_closeObject, valueTokens]
    rfl
  | .object ((key, value) :: members), rest, _ => by
    have hvalue := tokens_write (depth + 1) value (delimited_writeMembers hstyle depth members rest)
    rw [write]
    simp only [List.cons_append, List.append_assoc]
    rw [tokens_openObject, tokens_blanks (hstyle.lineBreak _), tokens_stringText, tokens_colon,
      tokens_blanks hstyle.afterColon, hvalue, tokens_writeMembers depth members]
    simp only [valueTokens, List.cons_append, List.append_assoc]

/-- What follows the first item has its own tokens. -/
theorem tokens_writeItems (depth : Nat) :
    ∀ (items : List Json) {rest : List Char},
      tokens (writeItems style depth items ++ rest) = itemTokens items ++ tokens rest
  | [], rest => by
    rw [writeItems, List.append_assoc, tokens_blanks (hstyle.lineBreak _), List.singleton_append,
      tokens_closeList, itemTokens, List.singleton_append]
  | item :: items, rest => by
    have hitem := tokens_write (depth + 1) item (delimited_writeItems hstyle depth items rest)
    rw [writeItems]
    simp only [List.cons_append, List.append_assoc]
    rw [tokens_comma, tokens_blanks (hstyle.lineBreak _), hitem, tokens_writeItems depth items]
    simp only [itemTokens, List.cons_append, List.append_assoc]

/-- What follows the first member has its own tokens. -/
theorem tokens_writeMembers (depth : Nat) :
    ∀ (members : List (String × Json)) {rest : List Char},
      tokens (writeMembers style depth members ++ rest) = memberTokens members ++ tokens rest
  | [], rest => by
    rw [writeMembers, List.append_assoc, tokens_blanks (hstyle.lineBreak _),
      List.singleton_append, tokens_closeObject, memberTokens, List.singleton_append]
  | (key, value) :: members, rest => by
    have hvalue := tokens_write (depth + 1) value (delimited_writeMembers hstyle depth members rest)
    rw [writeMembers]
    simp only [List.cons_append, List.append_assoc]
    rw [tokens_comma, tokens_blanks (hstyle.lineBreak _), tokens_stringText, tokens_colon,
      tokens_blanks hstyle.afterColon, hvalue, tokens_writeMembers depth members]
    simp only [memberTokens, List.cons_append, List.append_assoc]

end

/-- A written text has the tokens of its value and no others. -/
theorem tokens_written (j : Json) : tokens (write style 0 j) = valueTokens j := by
  have htokens := tokens_write hstyle 0 j (show Delimited [] by simp [Delimited])
  rwa [List.append_nil, show tokens [] = [] from rfl, List.append_nil] at htokens

end Written

/-! ## Section 2: The document -/

mutual

/-- The node of a value as it is read back. -/
def node : Json → Node
  | .null => .null
  | .bool b => .bool b
  | .number n =>
    match reread n with
    | .ok m => .number m
    | .error fault => .unfit fault
  | .string s => .string s
  | .list items => .list (itemNodes items) .closed
  | .object members => .object (memberNodes members) .closed

/-- The nodes of the items of a list. -/
def itemNodes : List Json → List Node
  | [] => []
  | item :: items => node item :: itemNodes items

/-- The nodes of the members of an object. -/
def memberNodes : List (String × Json) → List (Except Fault String × Node)
  | [] => []
  | (key, value) :: members => (.ok key, node value) :: memberNodes members

end

mutual

/-- The form in which a value is written. -/
def Form.ofJson : Json → Form
  | .null => .scalar ⟨_, .null⟩
  | .bool b => .scalar ⟨_, .bool b⟩
  | .number n => .scalar ⟨_, .number (isNumber_text n.numeral)⟩
  | .string s => .scalar ⟨_, .string (.of s)⟩
  | .list items => .list (Form.ofItems items)
  | .object members => .object (Form.ofMembers members)

/-- The forms of the items of a list. -/
def Form.ofItems : List Json → List Form
  | [] => []
  | item :: items => Form.ofJson item :: Form.ofItems items

/-- The forms of the members of an object. -/
def Form.ofMembers : List (String × Json) → List (Literal × Form)
  | [] => []
  | (key, value) :: members => (.of key, Form.ofJson value) :: Form.ofMembers members

end

mutual

/-- The node of the form in which a value is written. -/
theorem Form.node_ofJson : ∀ j : Json, (Form.ofJson j).node = Json.node j
  | .null => by
    rw [Form.ofJson, Form.node, Json.node]
    exact Scalar.node_eq_of_leaf .null fun rest _ => tokens_null rest
  | .bool b => by
    rw [Form.ofJson, Form.node, Json.node]
    exact Scalar.node_eq_of_leaf (.bool b) fun rest _ => tokens_bool b rest
  | .number n => by
    have hleaf : Leaf (.number (reread n)) (Json.node (.number n)) := by
      rw [Json.node]
      cases reread n with
      | ok m => exact .number m
      | error fault => exact .hugeNumber fault
    rw [Form.ofJson, Form.node]
    exact Scalar.node_eq_of_leaf hleaf fun rest hrest => tokens_numeral n hrest
  | .string s => by
    have hleaf : Leaf (.string (Literal.of s).reread) (Json.node (.string s)) := by
      rw [Literal.reread_of, Json.node]
      exact .string s
    rw [Form.ofJson, Form.node]
    exact Scalar.node_eq_of_leaf hleaf fun rest _ => (Literal.of s).tokens_text rest
  | .list items => by
    rw [Form.ofJson, Form.node, Form.itemNodes_ofItems items, Json.node]
  | .object members => by
    rw [Form.ofJson, Form.node, Form.memberNodes_ofMembers members, Json.node]

theorem Form.itemNodes_ofItems :
    ∀ items : List Json, Form.itemNodes (Form.ofItems items) = Json.itemNodes items
  | [] => by rw [Form.ofItems, Form.itemNodes, Json.itemNodes]
  | item :: items => by
    rw [Form.ofItems, Form.itemNodes, Form.node_ofJson item, Form.itemNodes_ofItems items,
      Json.itemNodes]

theorem Form.memberNodes_ofMembers :
    ∀ members : List (String × Json),
      Form.memberNodes (Form.ofMembers members) = Json.memberNodes members
  | [] => by rw [Form.ofMembers, Form.memberNodes, Json.memberNodes]
  | (key, value) :: members => by
    rw [Form.ofMembers, Form.memberNodes, Form.node_ofJson value,
      Form.memberNodes_ofMembers members, Literal.reread_of, Json.memberNodes]

end

section Spaced

variable {style : Style} (hstyle : style.Blank)

include hstyle

mutual

/-- A written value is its form with blanks in it. -/
theorem spaced_write (depth : Nat) :
    ∀ (j : Json) {more : List (List Char)} {rest : List Char}, Spaced more rest →
      Spaced ((Form.ofJson j).lexemes ++ more) (write style depth j ++ rest)
  | .null, more, rest, h => by
    rw [Form.ofJson, Form.lexemes, write]
    exact h.lexeme_append _
  | .bool b, more, rest, h => by
    rw [Form.ofJson, Form.lexemes, write]
    exact h.lexeme_append _
  | .number n, more, rest, h => by
    rw [Form.ofJson, Form.lexemes, write]
    exact h.lexeme_append _
  | .string s, more, rest, h => by
    rw [Form.ofJson, Form.lexemes, write, ← Literal.text_of]
    exact h.lexeme_append _
  | .list [], more, rest, h => by
    rw [Form.ofJson, Form.ofItems, Form.lexemes, write]
    exact (h.lexeme_append [']']).lexeme_append ['[']
  | .list (item :: items), more, rest, h => by
    have hitem := spaced_write (depth + 1) item (spaced_writeItems depth items h)
    rw [Form.ofJson, Form.ofItems, Form.lexemes, write]
    simp only [List.cons_append, List.append_assoc]
    exact (hitem.blanks_append (hstyle.lineBreak _)).lexeme_append ['[']
  | .object [], more, rest, h => by
    rw [Form.ofJson, Form.ofMembers, Form.lexemes, write]
    exact (h.lexeme_append ['\x7d']).lexeme_append ['\x7b']
  | .object ((key, value) :: members), more, rest, h => by
    have hvalue := spaced_write (depth + 1) value (spaced_writeMembers depth members h)
    rw [Form.ofJson, Form.ofMembers, Form.lexemes, write]
    simp only [List.cons_append, List.append_assoc, Literal.text_of]
    exact ((((hvalue.blanks_append hstyle.afterColon).lexeme_append [':']).lexeme_append
      (stringText key)).blanks_append (hstyle.lineBreak _)).lexeme_append ['\x7b']

theorem spaced_writeItems (depth : Nat) :
    ∀ (items : List Json) {more : List (List Char)} {rest : List Char}, Spaced more rest →
      Spaced (Form.itemLexemes (Form.ofItems items) ++ more) (writeItems style depth items ++ rest)
  | [], more, rest, h => by
    rw [Form.ofItems, Form.itemLexemes, writeItems, List.append_assoc]
    exact (h.lexeme_append [']']).blanks_append (hstyle.lineBreak _)
  | item :: items, more, rest, h => by
    have hitem := spaced_write (depth + 1) item (spaced_writeItems depth items h)
    rw [Form.ofItems, Form.itemLexemes, writeItems]
    simp only [List.cons_append, List.append_assoc]
    exact (hitem.blanks_append (hstyle.lineBreak _)).lexeme_append [',']

theorem spaced_writeMembers (depth : Nat) :
    ∀ (members : List (String × Json)) {more : List (List Char)} {rest : List Char},
      Spaced more rest →
        Spaced (Form.memberLexemes (Form.ofMembers members) ++ more)
          (writeMembers style depth members ++ rest)
  | [], more, rest, h => by
    rw [Form.ofMembers, Form.memberLexemes, writeMembers, List.append_assoc]
    exact (h.lexeme_append ['\x7d']).blanks_append (hstyle.lineBreak _)
  | (key, value) :: members, more, rest, h => by
    have hvalue := spaced_write (depth + 1) value (spaced_writeMembers depth members h)
    rw [Form.ofMembers, Form.memberLexemes, writeMembers]
    simp only [List.cons_append, List.append_assoc, Literal.text_of]
    exact ((((hvalue.blanks_append hstyle.afterColon).lexeme_append [':']).lexeme_append
      (stringText key)).blanks_append (hstyle.lineBreak _)).lexeme_append [',']

end

/-- A written text spells the form of its value. -/
theorem spaced_written (j : Json) : Spaced (Form.ofJson j).lexemes (write style 0 j) := by
  have hspaced := spaced_write hstyle 0 j (.nil (List.forall_mem_nil _))
  rwa [List.append_nil, List.append_nil] at hspaced

end Spaced

/-- **A written text holds its value** and nothing behind it. -/
theorem ofText_written {style : Style} (hstyle : style.Blank) (j : Json) :
    Document.ofText (String.ofList (write style 0 j)) = ⟨node j, false⟩ := by
  have hspaced := spaced_written hstyle j
  rw [← String.toList_ofList (l := write style 0 j)] at hspaced
  rw [ofText_of_spaced hspaced, Form.node_ofJson]

/-! ## Section 3: Nesting -/

/-- The most containers that are open at once, from a place on where so many
    are open. -/
def deepest (opened : Nat) : List Token → Nat
  | [] => opened
  | .openList :: more | .openObject :: more => deepest (opened + 1) more
  | .closeList :: more | .closeObject :: more => max opened (deepest (opened - 1) more)
  | _ :: more => deepest opened more

/-- How many containers of a text stand inside each other, empty ones and the
    outermost one included. -/
def nesting (text : String) : Nat := deepest 0 (tokens text.toList)

mutual

/-- How many containers of a value stand inside each other. -/
def height : Json → Nat
  | .list items => itemsHeight items + 1
  | .object members => membersHeight members + 1
  | .null | .bool _ | .number _ | .string _ => 0

/-- The height of the highest item. -/
def itemsHeight : List Json → Nat
  | [] => 0
  | item :: items => max (height item) (itemsHeight items)

/-- The height of the highest member. -/
def membersHeight : List (String × Json) → Nat
  | [] => 0
  | (_, value) :: members => max (height value) (membersHeight members)

end

theorem le_deepest (opened : Nat) (tokens : List Token) : opened ≤ deepest opened tokens := by
  fun_induction deepest opened tokens with
  | case1 opened => exact Nat.le_refl _
  | case2 opened more ih => omega
  | case3 opened more ih => omega
  | case4 opened more ih => omega
  | case5 opened more ih => omega
  | case6 opened token more _ _ _ _ ih => exact ih

-- Inside a container one more is open than behind its closing bracket, and
-- `more` is what stands behind it.
mutual

/-- A value opens as many containers as it is high, and closes them all. -/
theorem deepest_valueTokens :
    ∀ (j : Json) (opened : Nat) (more : List Token),
      deepest opened (valueTokens j ++ more) = max (opened + height j) (deepest opened more)
  | .null, opened, more => by
    rw [valueTokens, height, Nat.add_zero, Nat.max_eq_right (le_deepest opened more)]
    rfl
  | .bool b, opened, more => by
    rw [valueTokens, height, Nat.add_zero, Nat.max_eq_right (le_deepest opened more)]
    rfl
  | .number n, opened, more => by
    rw [valueTokens, height, Nat.add_zero, Nat.max_eq_right (le_deepest opened more)]
    rfl
  | .string s, opened, more => by
    rw [valueTokens, height, Nat.add_zero, Nat.max_eq_right (le_deepest opened more)]
    rfl
  | .list [], opened, more => by
    rw [valueTokens, height, itemsHeight]
    rfl
  | .list (item :: items), opened, more => by
    rw [valueTokens, height, itemsHeight, List.cons_append, List.cons_append, List.append_assoc,
      deepest, deepest_valueTokens item, deepest_itemTokens items]
    omega
  | .object [], opened, more => by
    rw [valueTokens, height, membersHeight]
    rfl
  | .object ((key, value) :: members), opened, more => by
    rw [valueTokens, height, membersHeight]
    simp only [List.cons_append, List.append_assoc, deepest]
    rw [deepest_valueTokens value, deepest_memberTokens members]
    omega

/-- What follows the first item closes the list. -/
theorem deepest_itemTokens :
    ∀ (items : List Json) (opened : Nat) (more : List Token),
      deepest (opened + 1) (itemTokens items ++ more) =
        max (opened + 1 + itemsHeight items) (deepest opened more)
  | [], opened, more => by
    rw [itemTokens, itemsHeight]
    rfl
  | item :: items, opened, more => by
    rw [itemTokens, itemsHeight]
    simp only [List.cons_append, List.append_assoc, deepest]
    rw [deepest_valueTokens item, deepest_itemTokens items]
    omega

/-- What follows the first member closes the object. -/
theorem deepest_memberTokens :
    ∀ (members : List (String × Json)) (opened : Nat) (more : List Token),
      deepest (opened + 1) (memberTokens members ++ more) =
        max (opened + 1 + membersHeight members) (deepest opened more)
  | [], opened, more => by
    rw [memberTokens, membersHeight]
    rfl
  | (key, value) :: members, opened, more => by
    rw [memberTokens, membersHeight]
    simp only [List.cons_append, List.append_assoc, deepest]
    rw [deepest_valueTokens value, deepest_memberTokens members]
    omega

end

/-- **A text nests as deep as its value** is high. -/
theorem nesting_written {style : Style} (hstyle : style.Blank) (j : Json) :
    nesting (String.ofList (write style 0 j)) = height j := by
  have hdeepest := deepest_valueTokens j 0 []
  rw [List.append_nil] at hdeepest
  rw [nesting, String.toList_ofList, tokens_written hstyle, hdeepest, deepest]
  omega

end BlockFlow.Json
