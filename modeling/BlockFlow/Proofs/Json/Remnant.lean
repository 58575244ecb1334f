import BlockFlow.Proofs.Json.NumberCut
import BlockFlow.Proofs.Json.Written

/-! # Written texts that break off

    A value that was written as text, and what is left of it when the text ends
    behind any of its characters.

    - Inside a word or a string there is one token left, which is cut short
      (`tokensIn_word_cut`, `tokensIn_string_cut`); for numbers see `numberCut`.
    - `Remnant j node` says what may be left of the value `j`: the first items
      or members of each container, all of them whole but the last, and an
      ending that tells where the text ends.
    - `OnCuts builder text P` says that the documents of all cuts of a text have
      a property. It is put together along the text (`OnCuts.append`), so the
      induction follows the writer.

    The document of a text that breaks off holds a remnant of its value, and the
    value itself is not complete (`exists_remnant`). -/

namespace BlockFlow.Json

open Builder (Awaits deliver)

/-! ## Section 1: Words and strings -/

theorem tokensIn_word_cut {rest t : List Char} (token : Token) (ht : t <+: rest) (hne : t ≠ rest) :
    tokensIn (.word rest token) t = [Lexer.brokenWord token (.cutShort .value)] := by
  induction rest generalizing t with
  | nil => exact absurd (List.prefix_nil.mp ht) hne
  | cons c rest ih =>
    rcases List.prefix_cons_iff.mp ht with rfl | ⟨u, rfl, hu⟩
    · rfl
    · have hne : u ≠ rest := fun h => hne (congrArg (c :: ·) h)
      have hmore : rest.isEmpty = false := by
        rw [List.isEmpty_eq_false_iff]
        rintro rfl
        exact hne (List.prefix_nil.mp hu)
      have hstep : Lexer.step ⟨.word (c :: rest) token, []⟩ c = ⟨.word rest token, []⟩ := by
        show Lexer.inWord _ (c :: rest) token c = _
        rw [Lexer.inWord, if_pos rfl, hmore]
        rfl
      rw [tokensIn_cons _ hstep]
      exact ih hu hne

theorem tokens_word_cut {c : Char} {rest t : List Char} {token : Token}
    (hbegin : Lexer.step ⟨.between, []⟩ c = ⟨.word rest token, []⟩) (ht : t <+: c :: rest)
    (hne : t ≠ c :: rest) :
    tokens t = [] ∨ tokens t = [Lexer.brokenWord token (.cutShort .value)] := by
  rcases List.prefix_cons_iff.mp ht with rfl | ⟨u, rfl, hu⟩
  · exact .inl rfl
  · rw [tokens_eq_tokensIn, tokensIn_cons _ hbegin]
    exact .inr (tokensIn_word_cut token hu fun h => hne (congrArg (c :: ·) h))

theorem tokens_null_cut {t : List Char} (ht : t <+: "null".toList) (hne : t ≠ "null".toList) :
    tokens t = [] ∨ tokens t = [.broken .null (.cutShort .value) (.cutShort .value)] := by
  have hbegin : Lexer.step ⟨.between, []⟩ 'n' = ⟨.word ['u', 'l', 'l'] .null, []⟩ := rfl
  exact tokens_word_cut hbegin ht hne

theorem tokens_bool_cut (b : Bool) {t : List Char}
    (ht : t <+: if b then "true".toList else "false".toList)
    (hne : t ≠ if b then "true".toList else "false".toList) :
    tokens t = [] ∨ tokens t = [.broken .scalar (.cutShort .value) (.cutShort .value)] := by
  cases b with
  | true =>
    have hbegin : Lexer.step ⟨.between, []⟩ 't' = ⟨.word ['r', 'u', 'e'] (.bool true), []⟩ := rfl
    exact tokens_word_cut hbegin ht hne
  | false =>
    have hbegin : Lexer.step ⟨.between, []⟩ 'f' = ⟨.word ['a', 'l', 's', 'e'] (.bool false), []⟩ :=
      rfl
    exact tokens_word_cut hbegin ht hne

/-- Fewer than four digits behind `\u`. -/
theorem tokensIn_hex_cut {digits : List Char} (h : ∀ c ∈ digits, IsHexDigit c) (s : Spelling)
    {bytes : Nat} (hbytes : bytes + digits.length < 4) (v : Nat) :
    tokensIn (.hex s bytes (some v)) digits = [s.broken (.cutShort .string)] := by
  induction digits generalizing bytes v with
  | nil => rfl
  | cons c digits ih =>
    obtain ⟨hc, h⟩ := List.forall_mem_cons.mp h
    rw [List.length_cons] at hbytes
    obtain ⟨v', hv'⟩ := tokensIn_hex hc s (show bytes < 3 by omega) v
    rw [hv']
    exact ih h (by omega) v'

/-- A piece of a string that is cut off. -/
theorem IsPiece.tokensIn_cut {piece t : List Char} (h : IsPiece piece) (s : Spelling)
    (ht : t <+: piece) (hne : t ≠ piece) :
    tokensIn (.string s) t = [s.broken (.cutShort .string)] := by
  cases h with
  | plain =>
    rcases List.prefix_cons_iff.mp ht with rfl | ⟨u, rfl, hu⟩
    · rfl
    · exact absurd (congrArg (_ :: ·) (List.prefix_nil.mp hu)) hne
  | letter =>
    rcases List.prefix_cons_iff.mp ht with rfl | ⟨u, rfl, hu⟩
    · rfl
    rcases List.prefix_cons_iff.mp hu with rfl | ⟨v, rfl, hv⟩
    · rfl
    · exact absurd (congrArg ('\\' :: _ :: ·) (List.prefix_nil.mp hv)) hne
  | @unit a b c d ha hb hc hd =>
    rcases List.prefix_cons_iff.mp ht with rfl | ⟨u, rfl, hu⟩
    · rfl
    rcases List.prefix_cons_iff.mp hu with rfl | ⟨digits, rfl, hdigits⟩
    · rfl
    have hall : ∀ x ∈ [a, b, c, d], IsHexDigit x := by simp [ha, hb, hc, hd]
    have hlength : digits.length < 4 := by
      refine Nat.lt_of_le_of_ne hdigits.length_le fun h => hne ?_
      exact congrArg ('\\' :: 'u' :: ·) (hdigits.eq_of_length h)
    rw [tokensIn_cons _ (show _ = Lexer.mk (.escape s) [] from rfl),
      tokensIn_cons _ (show _ = Lexer.mk (.hex s 0 (some 0)) [] from rfl)]
    exact tokensIn_hex_cut (fun x hx => hall x (hdigits.subset hx)) s (by omega) 0

/-- The rest of a string that is cut off before its quotation mark. -/
theorem tokensIn_string_cut {text t : List Char} (chars : List Char)
    (ht : t <+: text.flatMap escapeChar ++ ['"']) (hne : t ≠ text.flatMap escapeChar ++ ['"']) :
    tokensIn (.string (.of chars)) t =
      [.broken .string (.cutShort .string) (.cutShort .string)] := by
  induction text generalizing chars t with
  | nil =>
    rcases List.prefix_cons_iff.mp ht with rfl | ⟨u, rfl, hu⟩
    · rfl
    · exact absurd (congrArg ('"' :: ·) (List.prefix_nil.mp hu)) hne
  | cons c text ih =>
    rw [List.flatMap_cons, List.append_assoc] at ht hne
    rcases prefix_append_cases ht with ht | ⟨u, rfl, hu⟩
    · by_cases hfull : t = escapeChar c
      · have hnone := ih (c :: chars) (List.nil_prefix) (by simp)
        rw [hfull, ← List.append_nil (escapeChar c), tokensIn_escapeChar]
        exact hnone
      · exact (Literal.isPiece_escapeChar c).tokensIn_cut _ ht hfull
    · rw [tokensIn_escapeChar]
      exact ih (c :: chars) hu fun h => hne (congrArg (escapeChar c ++ ·) h)

/-- A string that is cut off. -/
theorem tokens_string_cut (s : String) {t : List Char} (ht : t <+: stringText s)
    (hne : t ≠ stringText s) :
    tokens t = [] ∨ tokens t = [.broken .string (.cutShort .string) (.cutShort .string)] := by
  rcases List.prefix_cons_iff.mp ht with rfl | ⟨u, rfl, hu⟩
  · exact .inl rfl
  · rw [tokens_eq_tokensIn, tokensIn_cons _ (show _ = Lexer.mk (.string (.of [])) [] from rfl)]
    exact .inr (tokensIn_string_cut [] hu fun h => hne (congrArg ('"' :: ·) h))

/-! ## Section 2: Remnants -/

mutual

/-- What may be left of a value. -/
inductive Remnant : Json → Node → Prop where
  /-- Nothing of it. -/
  | nothing (j : Json) (region : Region) (passing : Problem) :
      Remnant j (.broken .nothing (.cutShort region) passing)
  /-- The word `null`. -/
  | null : Remnant .null .null
  /-- A part of the word. -/
  | cutNull (region : Region) (passing : Problem) :
      Remnant .null (.broken .null (.cutShort region) passing)
  /-- A truth value. -/
  | bool (b : Bool) : Remnant (.bool b) (.bool b)
  /-- A part of it. -/
  | cutBool (b : Bool) (region : Region) (passing : Problem) :
      Remnant (.bool b) (.broken .scalar (.cutShort region) passing)
  /-- A number that is one without its last characters, too. -/
  | number {n m : Number} (h : n.Leaves m) : Remnant (.number n) (.number m)
  /-- A part of a number. -/
  | cutNumber (n : Number) (region : Region) (passing : Problem) :
      Remnant (.number n) (.broken .scalar (.cutShort region) passing)
  /-- A string. -/
  | string (s : String) : Remnant (.string s) (.string s)
  /-- A part of a string. -/
  | cutString (s : String) (region : Region) (passing : Problem) :
      Remnant (.string s) (.broken .string (.cutShort region) passing)
  /-- A list with its first items. -/
  | list {items : List Json} {nodes : List Node} {ending : Ending}
      (h : RemnantItems items nodes ending) : Remnant (.list items) (.list nodes ending)
  /-- An object with its first members. -/
  | object {members : List (String × Json)} {nodes : List (Except Fault String × Node)}
      {ending : Ending} (h : RemnantMembers members nodes ending) :
      Remnant (.object members) (.object nodes ending)

/-- What may be left of the items of a list. -/
inductive RemnantItems : List Json → List Node → Ending → Prop where
  /-- All of them are left, and the bracket. -/
  | closed : RemnantItems [] [] .closed
  /-- No other item is left. -/
  | cut (items : List Json) : RemnantItems items [] .cut
  /-- A comma is left before the next item. -/
  | comma (item : Json) (items : List Json) : RemnantItems (item :: items) [] .cutAfterComma
  /-- An item, and what is left of the others. -/
  | cons {item : Json} {node : Node} {items : List Json} {nodes : List Node} {ending : Ending}
      (h : Remnant item node) (hrest : RemnantItems items nodes ending) :
      RemnantItems (item :: items) (node :: nodes) ending

/-- What may be left of the members of an object. -/
inductive RemnantMembers :
    List (String × Json) → List (Except Fault String × Node) → Ending → Prop where
  /-- All of them are left, and the brace. -/
  | closed : RemnantMembers [] [] .closed
  /-- No other member is left. -/
  | cut (members : List (String × Json)) : RemnantMembers members [] .cut
  /-- A comma is left before the next member. -/
  | comma (member : String × Json) (members : List (String × Json)) :
      RemnantMembers (member :: members) [] .cutAfterComma
  /-- A part of the next key is left. -/
  | key (member : String × Json) (members : List (String × Json)) (region : Region)
      (passing : Problem) :
      RemnantMembers (member :: members) [] (.brokenKey (.cutShort region) passing)
  /-- A member, and what is left of the others. -/
  | cons {key : String} {value : Json} {node : Node} {members : List (String × Json)}
      {nodes : List (Except Fault String × Node)} {ending : Ending} (h : Remnant value node)
      (hrest : RemnantMembers members nodes ending) :
      RemnantMembers ((key, value) :: members) ((.ok key, node) :: nodes) ending

end

mutual

/-- A whole value is left of itself. -/
theorem remnant_node : ∀ j : Json, Remnant j (node j)
  | .null => by
    rw [node]
    exact .null
  | .bool b => by
    rw [node]
    exact .bool b
  | .number n => by
    obtain ⟨m, hm, hleaves⟩ := exists_reread n
    rw [node, hm]
    exact .number hleaves
  | .string s => by
    rw [node]
    exact .string s
  | .list items => by
    rw [node]
    exact .list (remnant_itemNodes items)
  | .object members => by
    rw [node]
    exact .object (remnant_memberNodes members)

theorem remnant_itemNodes : ∀ items : List Json, RemnantItems items (itemNodes items) .closed
  | [] => by
    rw [itemNodes]
    exact .closed
  | item :: items => by
    rw [itemNodes]
    exact .cons (remnant_node item) (remnant_itemNodes items)

theorem remnant_memberNodes :
    ∀ members : List (String × Json), RemnantMembers members (memberNodes members) .closed
  | [] => by
    rw [memberNodes]
    exact .closed
  | (_, value) :: members => by
    rw [memberNodes]
    exact .cons (remnant_node value) (remnant_memberNodes members)

end

/-- A container without its closing bracket, or no container. -/
def Node.IsOpen : Node → Prop
  | .list _ ending | .object _ ending => ending ≠ .closed
  | _ => True

/-! ## Section 3: All cuts of a text -/

/-- The documents of all cuts of a text have a property. -/
def OnCuts (builder : Builder) (text : List Char) (P : Document → Prop) : Prop :=
  ∀ t, t <+: text → t ≠ text → P (builder.run t).finish

namespace OnCuts

variable {builder next : Builder} {text rest : List Char} {P : Document → Prop}

theorem nil (builder : Builder) : OnCuts builder [] P :=
  fun _ ht hne => absurd (List.prefix_nil.mp ht) hne

/-- A cut is inside of the first part of a text, or behind it. -/
theorem append (h : OnCuts builder text P)
    (hrun : ∀ t, t <+: rest → builder.run (text ++ t) = next.run t)
    (hrest : OnCuts next rest P) : OnCuts builder (text ++ rest) P := by
  have hbehind : ∀ t, t <+: rest → text ++ t ≠ text ++ rest →
      P (builder.run (text ++ t)).finish := by
    intro t ht hne
    rw [hrun t ht]
    exact hrest t ht fun h => hne (congrArg (text ++ ·) h)
  intro t ht hne
  rcases prefix_append_cases ht with ht | ⟨u, rfl, hu⟩
  · by_cases hfull : t = text
    · rw [hfull, ← List.append_nil text] at hne ⊢
      exact hbehind [] List.nil_prefix (by simpa using hne)
    · exact h t ht hfull
  · exact hbehind u hu hne

theorem mark {c : Char} {token : Token}
    (hmark : ∀ rest, tokens (c :: rest) = token :: tokens rest) (hfinish : P builder.finish)
    (hrest : OnCuts (builder.step token) rest P) : OnCuts builder (c :: rest) P := by
  intro t ht hne
  rcases List.prefix_cons_iff.mp ht with rfl | ⟨u, rfl, hu⟩
  · exact hfinish
  · rw [Builder.run, hmark]
    exact hrest u hu fun h => hne (congrArg (c :: ·) h)

theorem blanks {blanks : List Char} (h : ∀ c ∈ blanks, IsBlank c) (hfinish : P builder.finish)
    (hrest : OnCuts builder rest P) : OnCuts builder (blanks ++ rest) P := by
  refine append (fun t ht _ => ?_) (fun t _ => ?_) hrest
  · have hblank : Spaced [] t := .nil fun c hc => h c (ht.subset hc)
    rw [Builder.run, hblank.tokens_eq_nil]
    exact hfinish
  · rw [Builder.run, Builder.run, tokens_blanks h]

/-- A string is cut off, or it is one step of the builder. -/
theorem string (s : String) (hfinish : P builder.finish)
    (hbroken : P (builder.step (.broken .string (.cutShort .string) (.cutShort .string))).finish)
    (hrest : OnCuts (builder.step (.string (.ok s))) rest P) :
    OnCuts builder (stringText s ++ rest) P := by
  refine append (fun t ht hne => ?_) (fun t _ => ?_) hrest
  · rw [Builder.run]
    rcases tokens_string_cut s ht hne with h | h
    · rw [h]
      exact hfinish
    · rw [h]
      exact hbroken
  · rw [Builder.run, tokens_stringText]
    rfl

end OnCuts

theorem Delimited.of_cut {rest t : List Char} (h : Delimited rest) (ht : t <+: rest) :
    Delimited t := by
  intro c hc
  cases t with
  | nil => cases hc
  | cons d t =>
    obtain ⟨u, rfl⟩ := ht
    exact h c hc

theorem Builder.finish_deliver (node : Node) (frames : List Frame) :
    (deliver node frames).finish = ⟨plug node frames, false⟩ := by
  cases frames with
  | nil => rfl
  | cons frame frames => cases frame <;> rfl

/-- A broken token where a value is due. -/
theorem Builder.Awaits.finish_broken {builder : Builder} {frames : List Frame}
    (h : builder.Awaits frames) (begun : Begun) (reading passing : Problem) :
    (builder.step (.broken begun reading passing)).finish =
      ⟨plug (.broken begun reading passing) frames, false⟩ := by
  rw [h _ Token.noConfusion]
  rfl

/-- A text of which every part is a broken token, if it has begun. -/
theorem OnCuts.broken {builder : Builder} {frames : List Frame} {text : List Char}
    {P : Document → Prop} {begun : Begun} {reading passing : Problem}
    (hawaits : builder.Awaits frames) (hfinish : P builder.finish)
    (hbroken : P ⟨plug (.broken begun reading passing) frames, false⟩)
    (htokens : ∀ t, t <+: text → t ≠ text →
      tokens t = [] ∨ tokens t = [.broken begun reading passing]) : OnCuts builder text P := by
  intro t ht hne
  rw [Builder.run]
  rcases htokens t ht hne with h | h
  · rw [h]
    exact hfinish
  · rw [h, List.foldl_cons, List.foldl_nil, hawaits.finish_broken]
    exact hbroken

section Written

variable {style : Style} (hstyle : style.Blank)

include hstyle

/-- A whole value is delivered, where the text is delimited. -/
theorem run_write {builder : Builder} {frames : List Frame} (hawaits : builder.Awaits frames)
    (depth : Nat) (j : Json) {rest : List Char} (hrest : Delimited rest) :
    builder.run (write style depth j ++ rest) = (deliver (node j) frames).run rest := by
  have hvalue : (valueTokens j).foldl Builder.step builder = deliver (node j) frames := by
    have hspaced := spaced_write hstyle depth j (.nil (List.forall_mem_nil _))
    have htokens := tokens_write hstyle depth j (show Delimited [] by simp [Delimited])
    rw [List.append_nil] at hspaced
    have hrun := Form.run_alone hspaced hawaits
    rwa [Builder.run, htokens, Form.node_ofJson, show tokens [] = [] from rfl,
      List.append_nil] at hrun
  rw [Builder.run, tokens_write hstyle depth j hrest, List.foldl_append, hvalue]
  rfl

theorem OnCuts.write {builder : Builder} {frames : List Frame} (hawaits : builder.Awaits frames)
    {depth : Nat} {j : Json} {rest : List Char} {P : Document → Prop} (hdelimited : Delimited rest)
    (h : OnCuts builder (Json.write style depth j) P)
    (hrest : OnCuts (deliver (node j) frames) rest P) :
    OnCuts builder (Json.write style depth j ++ rest) P :=
  h.append (fun _ ht => run_write hstyle hawaits depth j (hdelimited.of_cut ht)) hrest

end Written

/-! ## Section 4: The cuts of a written value -/

/-- The cuts of a value: nothing of it has begun, or a remnant is left that is
    not complete. This is said for every property of documents, since the frames
    around the value change what is to be shown. -/
def CutsValue (style : Style) (depth : Nat) (j : Json) : Prop :=
  ∀ (builder : Builder) (frames : List Frame) (P : Document → Prop), builder.Awaits frames →
    P builder.finish → (∀ node, Remnant j node → node.IsOpen → P ⟨plug node frames, false⟩) →
      OnCuts builder (Json.write style depth j) P

/-- The cuts of what follows the first item of a list. -/
def CutsItems (style : Style) (depth : Nat) (items : List Json) : Prop :=
  ∀ (before : List Node) (frames : List Frame) (P : Document → Prop),
    (∀ nodes ending, RemnantItems items nodes ending → ending ≠ .closed →
      P ⟨plug (.list (before.reverse ++ nodes) ending) frames, false⟩) →
        OnCuts (.afterItem before frames) (writeItems style depth items) P

/-- The cuts of what follows the first member of an object. -/
def CutsMembers (style : Style) (depth : Nat) (members : List (String × Json)) : Prop :=
  ∀ (before : List (Except Fault String × Node)) (frames : List Frame) (P : Document → Prop),
    (∀ nodes ending, RemnantMembers members nodes ending → ending ≠ .closed →
      P ⟨plug (.object (before.reverse ++ nodes) ending) frames, false⟩) →
        OnCuts (.afterMember before frames) (writeMembers style depth members) P

section Written

variable {style : Style} (hstyle : style.Blank)

include hstyle

/-- An item and those behind it, whether it is the first or stands behind a
    comma. -/
theorem onCuts_item {depth : Nat} {item : Json} {items : List Json}
    (hitem : CutsValue style (depth + 1) item) (hitems : CutsItems style depth items)
    {builder : Builder} {before : List Node} {frames : List Frame} {P : Document → Prop}
    (hawaits : builder.Awaits (.list before :: frames)) (hfinish : P builder.finish)
    (h : ∀ nodes ending, RemnantItems (item :: items) nodes ending → ending ≠ .closed →
      P ⟨plug (.list (before.reverse ++ nodes) ending) frames, false⟩) :
    OnCuts builder (style.lineBreak (depth + 1) ++
      (write style (depth + 1) item ++ writeItems style depth items)) P := by
  have hdelimited := delimited_writeItems hstyle depth items []
  rw [List.append_nil] at hdelimited
  refine .blanks (hstyle.lineBreak _) hfinish (.write hstyle hawaits hdelimited ?_ ?_)
  · refine hitem _ _ _ hawaits hfinish fun node hnode _ => ?_
    have hcut := h [node] .cut (.cons hnode (.cut items)) Ending.noConfusion
    rwa [← List.reverse_cons] at hcut
  · refine hitems _ _ _ fun nodes ending hnodes hopen => ?_
    have hcut := h (node item :: nodes) ending (.cons (remnant_node item) hnodes) hopen
    rwa [List.append_cons, ← List.reverse_cons] at hcut

/-- A key is due, or a closing brace. -/
def Builder.AwaitsKey (builder : Builder) (before : List (Except Fault String × Node))
    (frames : List Frame) : Prop :=
  ∃ atBrace, ∀ token, builder.step token = takeKey before frames atBrace token

/-- A member and those behind it, whether it is the first or stands behind a
    comma. -/
theorem onCuts_member {depth : Nat} {key : String} {value : Json}
    {members : List (String × Json)} (hvalue : CutsValue style (depth + 1) value)
    (hmembers : CutsMembers style depth members) {builder : Builder}
    {before : List (Except Fault String × Node)} {frames : List Frame} {P : Document → Prop}
    (hawaits : builder.AwaitsKey before frames) (hfinish : P builder.finish)
    (h : ∀ nodes ending, RemnantMembers ((key, value) :: members) nodes ending →
      ending ≠ .closed → P ⟨plug (.object (before.reverse ++ nodes) ending) frames, false⟩) :
    OnCuts builder (style.lineBreak (depth + 1) ++ (stringText key ++ ':' :: (style.afterColon ++
      (write style (depth + 1) value ++ writeMembers style depth members)))) P := by
  obtain ⟨atBrace, hawaits⟩ := hawaits
  have hdelimited := delimited_writeMembers hstyle depth members []
  rw [List.append_nil] at hdelimited
  -- A remnant of the value makes up the last member.
  have hmember : ∀ node, Remnant value node →
      P ⟨plug node (.object before (.ok key) :: frames), false⟩ := by
    intro node hnode
    have hcut := h [(.ok key, node)] .cut (.cons hnode (.cut members)) Ending.noConfusion
    rwa [← List.reverse_cons] at hcut
  refine .blanks (hstyle.lineBreak _) hfinish (.string key hfinish ?_ ?_)
  · rw [hawaits]
    have hcut := h [] _ (.key _ members .string (.cutShort .string)) Ending.noConfusion
    rwa [List.append_nil] at hcut
  rw [hawaits]
  refine .mark tokens_colon (hmember _ (.nothing value .object _)) ?_
  have hnothing := hmember _ (.nothing value .value (.cutShort .value))
  refine .blanks hstyle.afterColon hnothing
    (.write hstyle (Builder.awaits_value _) hdelimited ?_ ?_)
  · exact hvalue _ _ _ (Builder.awaits_value _) hnothing fun node hnode _ => hmember node hnode
  · refine hmembers _ _ _ fun nodes ending hnodes hopen => ?_
    have hcut := h ((.ok key, node value) :: nodes) ending (.cons (remnant_node value) hnodes) hopen
    rwa [List.append_cons, ← List.reverse_cons] at hcut

-- The induction follows the writer: each mark, key, value and row of blanks is
-- one rule for cuts.
mutual

/-- **All cuts of a written value.** -/
theorem cutsValue (depth : Nat) : ∀ j : Json, CutsValue style depth j
  | .null => by
    intro builder frames P hawaits hfinish h
    rw [write]
    exact .broken hawaits hfinish (h _ (.cutNull _ _) trivial) fun _ => tokens_null_cut
  | .bool b => by
    intro builder frames P hawaits hfinish h
    rw [write]
    exact .broken hawaits hfinish (h _ (.cutBool b _ _) trivial) fun _ => tokens_bool_cut b
  | .number n => by
    intro builder frames P hawaits hfinish h t ht _
    rw [write] at ht
    have hcut := numberCut n ht
    rw [Builder.run]
    generalize tokens t = left at hcut ⊢
    cases hcut with
    | nothing => exact hfinish
    | @number m hm =>
      rw [List.foldl_cons, List.foldl_nil, hawaits _ Token.noConfusion]
      show P (deliver (.number m) frames).finish
      rw [Builder.finish_deliver]
      exact h _ (.number hm) trivial
    | broken =>
      rw [List.foldl_cons, List.foldl_nil, hawaits.finish_broken]
      exact h _ (.cutNumber n _ _) trivial
  | .string s => by
    intro builder frames P hawaits hfinish h
    rw [write]
    exact .broken hawaits hfinish (h _ (.cutString s _ _) trivial) fun _ => tokens_string_cut s
  | .list [] => by
    intro builder frames P hawaits hfinish h
    have hcut := h _ (.list (.cut [])) Ending.noConfusion
    rw [write]
    refine .mark tokens_openList hfinish ?_
    rw [hawaits _ Token.noConfusion]
    exact .mark tokens_closeList hcut (.nil _)
  | .list (item :: items) => by
    intro builder frames P hawaits hfinish h
    have hcut : P (Builder.firstItem frames).finish := h _ (.list (.cut _)) Ending.noConfusion
    rw [write]
    simp only [List.cons_append, List.append_assoc]
    refine .mark tokens_openList hfinish ?_
    rw [hawaits _ Token.noConfusion]
    exact onCuts_item hstyle (cutsValue (depth + 1) item) (cutsItems depth items)
      (Builder.awaits_firstItem frames) hcut fun nodes ending hnodes hopen =>
        h _ (.list hnodes) hopen
  | .object [] => by
    intro builder frames P hawaits hfinish h
    have hcut := h _ (.object (.cut [])) Ending.noConfusion
    rw [write]
    refine .mark tokens_openObject hfinish ?_
    rw [hawaits _ Token.noConfusion]
    exact .mark tokens_closeObject hcut (.nil _)
  | .object ((key, value) :: members) => by
    intro builder frames P hawaits hfinish h
    have hcut : P (Builder.firstKey frames).finish := h _ (.object (.cut _)) Ending.noConfusion
    rw [write]
    simp only [List.cons_append, List.append_assoc]
    refine .mark tokens_openObject hfinish ?_
    rw [hawaits _ Token.noConfusion]
    exact onCuts_member hstyle (cutsValue (depth + 1) value) (cutsMembers depth members)
      ⟨_, fun _ => rfl⟩ hcut fun nodes ending hnodes hopen => h _ (.object hnodes) hopen

theorem cutsItems (depth : Nat) : ∀ items : List Json, CutsItems style depth items
  | [] => by
    intro before frames P h
    have hcut := h [] .cut (.cut []) Ending.noConfusion
    rw [List.append_nil] at hcut
    rw [writeItems]
    exact .blanks (hstyle.lineBreak _) hcut (.mark tokens_closeList hcut (.nil _))
  | item :: items => by
    intro before frames P h
    have hcut := h [] .cut (.cut _) Ending.noConfusion
    have hcomma := h [] .cutAfterComma (.comma item items) Ending.noConfusion
    rw [List.append_nil] at hcut hcomma
    rw [writeItems]
    simp only [List.cons_append, List.append_assoc]
    refine .mark tokens_comma hcut ?_
    exact onCuts_item hstyle (cutsValue (depth + 1) item) (cutsItems depth items)
      (Builder.awaits_nextItem before frames) hcomma h

theorem cutsMembers (depth : Nat) :
    ∀ members : List (String × Json), CutsMembers style depth members
  | [] => by
    intro before frames P h
    have hcut := h [] .cut (.cut []) Ending.noConfusion
    rw [List.append_nil] at hcut
    rw [writeMembers]
    exact .blanks (hstyle.lineBreak _) hcut (.mark tokens_closeObject hcut (.nil _))
  | (key, value) :: members => by
    intro before frames P h
    have hcut := h [] .cut (.cut _) Ending.noConfusion
    have hcomma := h [] .cutAfterComma (.comma _ members) Ending.noConfusion
    rw [List.append_nil] at hcut hcomma
    rw [writeMembers]
    simp only [List.cons_append, List.append_assoc]
    refine .mark tokens_comma hcut ?_
    exact onCuts_member hstyle (cutsValue (depth + 1) value) (cutsMembers depth members)
      ⟨_, fun _ => rfl⟩ hcomma h

end

/-- **A text that breaks off** holds a remnant of the value that was written, and
    not all of it. -/
theorem exists_remnant (j : Json) {t : List Char} (ht : t <+: write style 0 j)
    (hne : t ≠ write style 0 j) :
    ∃ node, Document.ofText (String.ofList t) = ⟨node, false⟩ ∧ Remnant j node ∧ node.IsOpen := by
  rw [Document.ofText, String.toList_ofList]
  refine cutsValue hstyle 0 j (.value []) []
    (fun document => ∃ node, document = ⟨node, false⟩ ∧ Remnant j node ∧ node.IsOpen)
    (Builder.awaits_value []) ⟨_, rfl, .nothing j .value _, trivial⟩ ?_ t ht hne
  intro node hnode hopen
  exact ⟨node, rfl, hnode, hopen⟩

end Written

end BlockFlow.Json
