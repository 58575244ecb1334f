import BlockFlow.Program.Json
import BlockFlow.Proofs.Json.Lexing
import BlockFlow.Proofs.Lowering.Operand
import BlockFlow.Proofs.Program.DottedNames

/-! # Expressions can be told apart by their texts

    Expressions with plain names, without closures and doubles, are read back
    from how they are shown, whatever follows that cannot extend them. So two
    of them that look alike are alike.

    - There is one exception: `-3` is shown for the integer and for the minus
      sign before a positive one. `Expr.folded` makes the sign a part of the
      integer everywhere, and this is what is read.
    - `Inline.readExpr` reads an expression from the front of a text. The
      first character decides between a group in parentheses, a sign, a quoted
      text, a number and a dotted name.
    - `Inline.readExpr_render` follows the expression. What comes behind an
      expression is nothing, a blank, a comma or a parenthesis (`Ends`), and
      no name or number goes on with one of these. -/

namespace BlockFlow

/-! ## Section 1: The expressions -/

/-- A letter, a digit or an underscore, all of them ASCII. -/
def Text.isWordChar (c : Char) : Bool := c.isAlphanum || c == '_'

/-- A word: letters, digits and underscores, and no digit first. -/
def Text.isWord (s : String) : Bool :=
  s.toList.all isWordChar && s.toList.head?.any fun c => !c.isDigit

/-- The value that a word stands for. -/
def Text.wordValue? (word : List Char) : Option Value :=
  if word = "null".toList then some .null
  else if word = "true".toList then some (.bool true)
  else if word = "false".toList then some (.bool false)
  else none

/-- A word that is no value. -/
def Text.isName (s : String) : Bool := isWord s && (wordValue? s.toList).isNone

namespace Expr

/-- A name, or a property of a property of a name. -/
inductive IsDotted : Expr → Prop where
  | ident {name : String} (h : Text.isName name = true) : IsDotted (.ident name)
  | member {object : Expr} {property : String} (h : IsDotted object)
      (hproperty : Text.isWord property = true) : IsDotted (.member object property)

/-- **The expressions that are read back**: no doubles, no closures, and plain
    calls of functions with dotted names only. -/
inductive IsInline : Expr → Prop where
  | null : IsInline (.literal .null)
  | integer (n : Int64) : IsInline (.literal (.integer n))
  | string (s : String) : IsInline (.literal (.string s))
  | bool (b : Bool) : IsInline (.literal (.bool b))
  | dotted {e : Expr} (h : e.IsDotted) : IsInline e
  | binary (op : BinaryOp) {left right : Expr} (hleft : IsInline left) (hright : IsInline right) :
      IsInline (.binary op left right)
  | unary (op : UnaryOp) {arg : Expr} (harg : IsInline arg) : IsInline (.unary op arg)
  | call {callee : Expr} {args : List Expr} (hcallee : callee.IsDotted)
      (hargs : ∀ arg ∈ args, IsInline arg) : IsInline (.call callee args .plain)

end Expr

/-- An operator before its operand, where a minus sign becomes part of a
    positive integer. -/
def UnaryOp.fold : UnaryOp → Expr → Expr
  | .neg, .literal (.integer n) =>
    if 0 < n.toInt then .literal (.integer (-n)) else .unary .neg (.literal (.integer n))
  | op, arg => .unary op arg

mutual

/-- The expression with every minus sign before a positive integer made part
    of the integer. -/
def Expr.folded : Expr → Expr
  | .literal v => .literal v
  | .ident name => .ident name
  | .binary op left right => .binary op left.folded right.folded
  | .unary op arg => op.fold arg.folded
  | .call callee args mode => .call callee.folded (Expr.listFolded args) mode
  | .member object property => .member object.folded property
  -- The body is not shown.
  | .closure params body isAsync => .closure params body isAsync

/-- Expressions with their signs folded. -/
def Expr.listFolded : List Expr → List Expr
  | [] => []
  | e :: es => e.folded :: Expr.listFolded es

end

/-! ## Section 2: Quoted texts -/

namespace Inline

/-- Where in a quoted text a reader stands. -/
inductive Quoting where
  /-- Before a character. -/
  | plain
  /-- Behind a backslash. -/
  | escape
  /-- Behind `\u`. -/
  | brace
  /-- In a code point, of which so much is read. -/
  | code (n : Nat)

/-- The character that a letter behind a backslash stands for. -/
def ofLetter (c : Char) : Char :=
  if c = '0' then '\x00' else if c = 't' then '\t' else if c = 'n' then '\n'
  else if c = 'r' then '\r' else c

/-- One more character at the front of what was read. -/
def push (c : Char) (read : List Char × List Char) : List Char × List Char := (c :: read.1, read.2)

/-- The text up to the closing quotation mark, and what follows it. -/
def unquote : Quoting → List Char → Option (List Char × List Char)
  | _, [] => none
  | .plain, c :: rest =>
    if c = '"' then some ([], rest)
    else if c = '\\' then unquote .escape rest
    else (unquote .plain rest).map (push c)
  | .escape, c :: rest =>
    if c = 'u' then unquote .brace rest else (unquote .plain rest).map (push (ofLetter c))
  | .brace, _ :: rest => unquote (.code 0) rest
  | .code n, c :: rest =>
    if c = '\x7d' then (unquote .plain rest).map (push (Char.ofNat n))
    else unquote (.code (16 * n + (Json.hexValue? c).getD 0)) rest

theorem hexValue?_digitChar {d : Nat} (h : d < 16) : Json.hexValue? d.digitChar = some d := by
  interval_cases d <;> rfl

/-- Hexadecimal digits are added to what was read of a code point. -/
theorem unquote_toDigits (n : Nat) (rest : List Char) :
    unquote (.code 0) (Nat.toDigits 16 n ++ rest) = unquote (.code n) rest := by
  induction n using Nat.strongRecOn generalizing rest with
  | ind n ih =>
    have hstep : ∀ {d : Nat} (m : Nat), d < 16 →
        unquote (.code m) (d.digitChar :: rest) = unquote (.code (16 * m + d)) rest := by
      intro d m hd
      have hbrace : d.digitChar ≠ '\x7d' := Nat.digitChar_ne '\x7d' rfl
      rw [unquote, if_neg hbrace, hexValue?_digitChar hd]
      rfl
    rw [Nat.toDigits_eq_if (by decide)]
    split
    · next hn =>
      rw [List.singleton_append, hstep 0 hn, Nat.mul_zero, Nat.zero_add]
    · next hn =>
      have hlast : n % 16 < 16 := Nat.mod_lt n (by decide)
      rw [List.append_assoc, List.singleton_append, ih (n / 16) (by omega), hstep _ hlast,
        Nat.div_add_mod]

/-- A character comes back from how it is quoted. -/
theorem unquote_quoteChar (c : Char) (rest : List Char) :
    unquote .plain (Text.quoteChar c ++ rest) = (unquote .plain rest).map (push c) := by
  unfold Text.quoteChar
  split_ifs with hnul htab hline hreturn hquote hslash hprintable
  · subst hnul; rfl
  · subst htab; rfl
  · subst hline; rfl
  · subst hreturn; rfl
  · subst hquote; rfl
  · subst hslash; rfl
  · rw [List.singleton_append, unquote, if_neg hquote, if_neg hslash]
  · show unquote (.code 0) (Nat.toDigits 16 c.toNat ++ ['\x7d'] ++ rest) = _
    rw [List.append_assoc, unquote_toDigits, List.singleton_append, unquote, if_pos rfl,
      Char.ofNat_toNat]

theorem unquote_flatMap_quoteChar (text rest : List Char) :
    unquote .plain (text.flatMap Text.quoteChar ++ '"' :: rest) = some (text, rest) := by
  induction text with
  | nil => rfl
  | cons c text ih =>
    rw [List.flatMap_cons, List.append_assoc, unquote_quoteChar, ih]
    rfl

/-! ## Section 3: The reader -/

/-- The characters of a dotted name. -/
def isDottedChar (c : Char) : Bool := Text.isWordChar c || c == '.'

/-- The number that the digits at the front of a text name. -/
def number (text : List Char) : Nat := Nat.ofDigitChars 10 (text.takeWhile Char.isDigit) 0

/-- A number with a minus sign. There is no integer with a sign for zero. -/
def negative (n : Nat) : Expr :=
  if n = 0 then .unary .neg (.literal (.integer 0)) else .literal (.integer (Int64.ofInt (-n)))

/-- The operator between two operands, with the blank behind it. -/
def readSymbol (text : List Char) : Option (BinaryOp × List Char) :=
  BinaryOp.all.findSome? fun op =>
    ((op.symbol.toList ++ [' ']).isPrefixOf? text).map fun rest => (op, rest)

/-- What follows a comma and a blank, if they are there. -/
def afterComma (text : List Char) : List Char :=
  if text.head? = some ',' then text.drop 2 else text

mutual

/-- Reads an expression that nests less than so many levels deep from the
    front of a text. -/
def readExpr : Nat → List Char → Option (Expr × List Char)
  | 0, _ => none
  | _ + 1, [] => none
  | bound + 1, c :: rest =>
    if c = '(' then (readExpr bound rest).bind fun (left, rest) => readGroup bound left rest
    else if c = '!' then (readExpr bound rest).map fun (arg, rest) => (.unary .not arg, rest)
    else if c = '-' then
      if rest.head?.any Char.isDigit then some (negative (number rest), rest.dropWhile Char.isDigit)
      else (readExpr bound rest).map fun (arg, rest) => (.unary .neg arg, rest)
    else if c = '"' then
      (unquote .plain rest).map fun (s, rest) => (.literal (.string (String.ofList s)), rest)
    else if c.isDigit then
      some (.literal (.integer (Int64.ofInt (number (c :: rest)))), (c :: rest).dropWhile Char.isDigit)
    else readWord bound ((c :: rest).takeWhile isDottedChar) ((c :: rest).dropWhile isDottedChar)

/-- Reads what follows the first expression of a group: its end, or an
    operator and another operand. -/
def readGroup : Nat → Expr → List Char → Option (Expr × List Char)
  | 0, _, _ => none
  | _ + 1, left, ')' :: rest => some (left, rest)
  | bound + 1, left, ' ' :: rest =>
    (readSymbol rest).bind fun (op, rest) => (readExpr bound rest).bind fun (right, rest) =>
      match rest with
      | ')' :: rest => some (.binary op left right, rest)
      | _ => none
  | _ + 1, _, _ => none

/-- Reads what follows a dotted name, which may be a value of its own: the
    arguments of a call, or nothing. -/
def readWord : Nat → List Char → List Char → Option (Expr × List Char)
  | 0, _, _ => none
  | bound + 1, word, rest =>
    match Text.wordValue? word with
    | some v => some (.literal v, rest)
    | none =>
      if rest.head? = some '(' then
        (readArgs bound rest.tail).map fun (args, rest) =>
          (.call (.path (String.ofList word)) args .plain, rest)
      else some (.path (String.ofList word), rest)

/-- Reads arguments up to the closing parenthesis. -/
def readArgs : Nat → List Char → Option (List Expr × List Char)
  | 0, _ => none
  | bound + 1, text =>
    if text.head? = some ')' then some ([], text.tail)
    else (readExpr bound text).bind fun (arg, rest) =>
      (readArgs bound (afterComma rest)).map fun (args, rest) => (arg :: args, rest)

end

/-! ## Section 4: Numbers and names in front of something else -/

/-- Nothing, or a character that extends no name and no number. -/
def Ends (rest : List Char) : Prop := ∀ c ∈ rest.head?, c = ' ' ∨ c = ',' ∨ c = ')'

theorem ends_cons {c : Char} (h : c = ' ' ∨ c = ',' ∨ c = ')') (rest : List Char) :
    Ends (c :: rest) := by
  intro d hd
  obtain rfl := Option.mem_some.mp hd
  exact h

/-- What satisfies a test is taken up to something that does not. -/
theorem takeWhile_append_of_head {p : Char → Bool} {text rest : List Char}
    (htext : ∀ c ∈ text, p c = true) (hrest : ∀ c ∈ rest.head?, p c = false) :
    (text ++ rest).takeWhile p = text ∧ (text ++ rest).dropWhile p = rest := by
  rw [List.takeWhile_append_of_pos htext, List.dropWhile_append_of_pos htext]
  cases rest with
  | nil => exact ⟨List.append_nil text, rfl⟩
  | cons c rest =>
    have hc : p c = false := hrest c rfl
    rw [List.takeWhile_cons, List.dropWhile_cons, hc]
    exact ⟨List.append_nil text, rfl⟩

theorem Ends.not_isDigit {rest : List Char} (h : Ends rest) :
    ∀ c ∈ rest.head?, c.isDigit = false := by
  intro c hc
  rcases h c hc with rfl | rfl | rfl <;> rfl

theorem Ends.not_isDottedChar {rest : List Char} (h : Ends rest) :
    ∀ c ∈ rest.head?, isDottedChar c = false := by
  intro c hc
  rcases h c hc with rfl | rfl | rfl <;> rfl

/-- A number is read from its digits. -/
theorem number_toDigits (n : Nat) {rest : List Char} (hrest : Ends rest) :
    number (Nat.toDigits 10 n ++ rest) = n ∧
      (Nat.toDigits 10 n ++ rest).dropWhile Char.isDigit = rest := by
  obtain ⟨htake, hdrop⟩ := takeWhile_append_of_head
    (fun c hc => Json.isDigit_of_mem_toDigits hc) hrest.not_isDigit
  refine ⟨?_, hdrop⟩
  rw [number, htake]
  exact Nat.ofDigitChars_ten_toDigits

/-- The digits of a number begin with a digit. -/
theorem head?_toDigits (n : Nat) (rest : List Char) :
    (Nat.toDigits 10 n ++ rest).head?.any Char.isDigit = true := by
  obtain ⟨c, digits, heq⟩ := List.exists_cons_of_ne_nil (Nat.toDigits_ne_nil (b := 10) (n := n))
  have hc : c.isDigit = true := by
    refine Json.isDigit_of_mem_toDigits (n := n) ?_
    rw [heq]
    exact List.mem_cons_self
  rw [heq]
  exact hc

end Inline

open Inline

namespace Expr

theorem toList_render_of_nonneg {n : Int64} (h : 0 ≤ n.toInt) :
    (Expr.literal (.integer n)).render.toList = Nat.toDigits 10 n.toInt.toNat := by
  rw [render, Value.render, Int.toString_eq_repr, Int.repr_eq_if, if_pos h,
    Nat.repr_eq_ofList_toDigits, String.toList_ofList]

theorem toList_render_of_neg {n : Int64} (h : n.toInt < 0) :
    (Expr.literal (.integer n)).render.toList = '-' :: Nat.toDigits 10 (-n.toInt).toNat := by
  rw [render, Value.render, Int.toString_eq_repr, Int.repr_eq_if, if_neg (by omega),
    Nat.repr_eq_ofList_toDigits, String.toList_append, String.toList_ofList, String.toList_ofList,
    List.singleton_append]

theorem toList_render_string (s : String) :
    (Expr.literal (.string s)).render.toList =
      '"' :: (s.toList.flatMap Text.quoteChar ++ ['"']) := by
  rw [render, Value.render, Text.quote, String.toList_ofList]
  rfl

theorem toList_render_binary (op : BinaryOp) (left right : Expr) :
    (Expr.binary op left right).render.toList =
      '(' :: (left.render.toList ++
        ' ' :: (op.symbol.toList ++ ' ' :: (right.render.toList ++ [')']))) := by
  simp [render]

theorem toList_render_unary_of_sign {arg : Expr} (h : arg.leadsWithSign = true) (op : UnaryOp) :
    (Expr.unary op arg).render.toList =
      op.symbol.toList ++ '(' :: (arg.render.toList ++ [')']) := by
  simp [render, h]

theorem toList_render_unary {arg : Expr} (h : arg.leadsWithSign = false) (op : UnaryOp) :
    (Expr.unary op arg).render.toList = op.symbol.toList ++ arg.render.toList := by
  simp [render, h]

theorem toList_render_call (callee : Expr) (args : List Expr) :
    (Expr.call callee args .plain).render.toList =
      callee.render.toList ++ '(' :: ((commaSeparated (renderList args)).toList ++ [')']) := by
  simp [render, CallMode.lead]

theorem toList_render_member (object : Expr) (property : String) :
    (Expr.member object property).render.toList =
      object.render.toList ++ '.' :: property.toList := by
  simp [render]

end Expr

theorem Text.exists_of_isWord {s : String} (h : Text.isWord s = true) :
    (∀ c ∈ s.toList, Text.isWordChar c = true) ∧
      ∃ c cs, s.toList = c :: cs ∧ c.isDigit = false := by
  rw [Text.isWord, Bool.and_eq_true, List.all_eq_true] at h
  refine ⟨h.1, ?_⟩
  cases hs : s.toList with
  | nil =>
    rw [hs] at h
    cases h.2
  | cons c cs =>
    rw [hs] at h
    exact ⟨c, cs, rfl, by simpa using h.2⟩

theorem Text.dot_notMem_of_isWord {s : String} (h : Text.isWord s = true) : '.' ∉ s.toList := by
  intro hdot
  cases (Text.exists_of_isWord h).1 '.' hdot

namespace Expr.IsDotted

variable {e : Expr} (h : e.IsDotted)

include h

theorem isDottedChar_of_mem : ∀ c ∈ e.render.toList, isDottedChar c = true := by
  have hword : ∀ {s : String}, Text.isWord s = true → ∀ c ∈ s.toList, isDottedChar c = true := by
    intro s hs c hc
    rw [isDottedChar, (Text.exists_of_isWord hs).1 c hc, Bool.true_or]
  induction h with
  | ident h =>
    rw [Text.isName, Bool.and_eq_true] at h
    rw [render]
    exact hword h.1
  | member _ hproperty ih =>
    rw [toList_render_member]
    exact List.forall_mem_append.mpr ⟨ih, List.forall_mem_cons.mpr ⟨rfl, hword hproperty⟩⟩

theorem exists_head : ∃ c cs, e.render.toList = c :: cs ∧ Text.isWordChar c = true ∧
    c.isDigit = false := by
  induction h with
  | ident h =>
    rw [Text.isName, Bool.and_eq_true] at h
    obtain ⟨hchars, c, cs, heq, hdigit⟩ := Text.exists_of_isWord h.1
    rw [render]
    refine ⟨c, cs, heq, hchars c ?_, hdigit⟩
    rw [heq]
    exact List.mem_cons_self
  | member _ _ ih =>
    obtain ⟨c, cs, heq, hc⟩ := ih
    rw [toList_render_member, heq]
    exact ⟨c, _, rfl, hc⟩

/-- A dotted name is none of the words that are values. -/
theorem wordValue?_render : Text.wordValue? e.render.toList = none := by
  cases h with
  | ident h =>
    rw [Text.isName, Bool.and_eq_true] at h
    rw [render]
    exact Option.isNone_iff_eq_none.mp h.2
  | @member object property _ _ =>
    have hdot : '.' ∈ (Expr.member object property).render.toList := by
      rw [toList_render_member]
      exact List.mem_append_right _ List.mem_cons_self
    have hne : ∀ {word : List Char}, '.' ∉ word →
        (Expr.member object property).render.toList ≠ word := by
      intro word hword heq
      exact hword (heq ▸ hdot)
    rw [Text.wordValue?, if_neg (hne (by decide)), if_neg (hne (by decide)),
      if_neg (hne (by decide))]

/-- A dotted name is taken apart into the pieces it was put together of. -/
theorem path_render : Expr.path e.render = e := by
  induction h with
  | ident h =>
    rw [Text.isName, Bool.and_eq_true] at h
    rw [render, path_of_notMem (Text.dot_notMem_of_isWord h.1)]
  | member _ hproperty ih =>
    rw [render, path_append, ih, memberPath_of_notMem (Text.dot_notMem_of_isWord hproperty)]

theorem folded_eq : e.folded = e := by
  induction h with
  | ident => rw [folded]
  | member _ _ ih => rw [folded, ih]

end Expr.IsDotted

/-! ## Section 5: Signs -/

namespace Expr

/-- What begins with a sign takes no other sign in. -/
theorem fold_folded_of_sign {arg : Expr} (h : arg.leadsWithSign = true) (op : UnaryOp) :
    op.fold arg.folded = .unary op arg.folded := by
  cases op with
  | not => rfl
  | neg =>
    have hinteger : ∀ {n : Int64}, n.toInt < 0 →
        UnaryOp.fold .neg (.literal (.integer n)) = .unary .neg (.literal (.integer n)) := by
      intro n hn
      exact if_neg (by omega)
    match arg, h with
    | .literal (.integer n), h =>
      rw [folded]
      exact hinteger (of_decide_eq_true h)
    | .literal (.float x), _ => rfl
    | .unary op arg, _ =>
      rw [folded]
      -- The inner sign may have gone into an integer, which is negative then.
      match op, arg.folded with
      | .neg, .literal (.integer n) =>
        by_cases hn : 0 < n.toInt
        · have hneg : (-n).toInt = -n.toInt := by
            have hlow := n.le_toInt
            have hhigh := n.toInt_lt
            rw [Int64.toInt_neg]
            exact Int.bmod_eq_of_le (by omega) (by omega)
          rw [show UnaryOp.fold .neg (.literal (.integer n)) = .literal (.integer (-n)) from
            if_pos hn]
          exact hinteger (by omega)
        · rw [show UnaryOp.fold .neg (.literal (.integer n)) = .unary .neg (.literal (.integer n))
            from if_neg hn]
          rfl
      | .not, _ => rfl
      | .neg, .literal .null | .neg, .literal (.float _) | .neg, .literal (.string _)
      | .neg, .literal (.bool _) | .neg, .ident _ | .neg, .binary _ _ _ | .neg, .unary _ _
      | .neg, .call _ _ _ | .neg, .member _ _ | .neg, .closure _ _ _ => rfl

end Expr

/-! ## Section 6: Reading back -/

namespace Inline

theorem readSymbol_symbol (op : BinaryOp) (rest : List Char) :
    readSymbol (op.symbol.toList ++ ' ' :: rest) = some (op, rest) := by
  cases op <;> rfl

/-- **An expression is read back**, with its signs folded, from its text and
    from nothing behind it. -/
def ReadsBack (e : Expr) : Prop :=
  ∀ {bound : Nat} {rest : List Char}, e.render.toList.length < bound → Ends rest →
    readExpr bound (e.render.toList ++ rest) = some (e.folded, rest)

/-- A word that is followed by something else is read as a word. -/
theorem readExpr_word {word rest : List Char} (hword : ∀ c ∈ word, isDottedChar c = true)
    (hhead : ∃ c cs, word = c :: cs ∧ Text.isWordChar c = true ∧ c.isDigit = false)
    (hrest : ∀ c ∈ rest.head?, isDottedChar c = false) (bound : Nat) :
    readExpr (bound + 1) (word ++ rest) = readWord bound word rest := by
  obtain ⟨htake, hdrop⟩ := takeWhile_append_of_head hword hrest
  obtain ⟨c, cs, rfl, hc, hdigit⟩ := hhead
  have hne : ∀ {d : Char}, Text.isWordChar d = false → c ≠ d := by
    rintro d hd rfl
    rw [hc] at hd
    cases hd
  rw [List.cons_append] at htake hdrop ⊢
  rw [readExpr, if_neg (hne rfl), if_neg (hne rfl), if_neg (hne rfl), if_neg (hne rfl), hdigit,
    htake, hdrop]
  rfl

theorem readsBack_value {v : Value} {word : String} (hrender : v.render = word)
    (hvalue : Text.wordValue? word.toList = some v) (hword : Text.isWord word = true) :
    ReadsBack (.literal v) := by
  intro bound rest hbound hrest
  obtain ⟨hchars, c, cs, heq, hdigit⟩ := Text.exists_of_isWord hword
  have hhead : Text.isWordChar c = true := hchars c (heq ▸ List.mem_cons_self)
  have hdotted : ∀ c ∈ word.toList, isDottedChar c = true := by
    intro c hc
    rw [isDottedChar, hchars c hc, Bool.true_or]
  rw [Expr.render, hrender, heq, List.length_cons] at hbound
  obtain ⟨bound, rfl⟩ : ∃ inside, bound = inside + 2 := ⟨bound - 2, by omega⟩
  rw [Expr.render, hrender, Expr.folded, readExpr_word hdotted ⟨c, cs, heq, hhead, hdigit⟩
    hrest.not_isDottedChar, readWord, hvalue]

theorem readsBack_string (s : String) : ReadsBack (.literal (.string s)) := by
  intro bound rest hbound _
  obtain ⟨bound, rfl⟩ : ∃ inside, bound = inside + 1 := ⟨bound - 1, by omega⟩
  rw [Expr.toList_render_string, List.cons_append, List.append_assoc, List.singleton_append]
  show (unquote .plain (s.toList.flatMap Text.quoteChar ++ '"' :: rest)).map _ = _
  rw [unquote_flatMap_quoteChar, Expr.folded]
  show some (Expr.literal (.string (String.ofList s.toList)), rest) = _
  rw [String.ofList_toList]

/-- A minus sign before digits belongs to them. -/
theorem readExpr_minus (n : Nat) {rest : List Char} (hrest : Ends rest) (bound : Nat) :
    readExpr (bound + 1) ('-' :: (Nat.toDigits 10 n ++ rest)) = some (negative n, rest) := by
  obtain ⟨hnumber, hdrop⟩ := number_toDigits n hrest
  have hunfold : readExpr (bound + 1) ('-' :: (Nat.toDigits 10 n ++ rest)) =
      if (Nat.toDigits 10 n ++ rest).head?.any Char.isDigit then
        some (negative (number (Nat.toDigits 10 n ++ rest)),
          (Nat.toDigits 10 n ++ rest).dropWhile Char.isDigit)
      else (readExpr bound (Nat.toDigits 10 n ++ rest)).map fun (arg, rest) =>
        (.unary .neg arg, rest) := rfl
  rw [hunfold, if_pos (head?_toDigits n rest), hnumber, hdrop]

theorem readsBack_integer (n : Int64) : ReadsBack (.literal (.integer n)) := by
  intro bound rest hbound hrest
  obtain ⟨bound, rfl⟩ : ∃ inside, bound = inside + 1 := ⟨bound - 1, by omega⟩
  rw [Expr.folded]
  by_cases hn : n.toInt < 0
  · rw [Expr.toList_render_of_neg hn, List.cons_append, readExpr_minus _ hrest, negative,
      if_neg (by omega), show -((-n.toInt).toNat : Int) = n.toInt by omega, Int64.ofInt_toInt]
  · obtain ⟨hnumber, hdrop⟩ := number_toDigits n.toInt.toNat hrest
    have hhead := head?_toDigits n.toInt.toNat rest
    rw [Expr.toList_render_of_nonneg (by omega)]
    generalize Nat.toDigits 10 n.toInt.toNat ++ rest = text at hnumber hdrop hhead ⊢
    cases text with
    | nil => cases hhead
    | cons c text =>
      have hc : c.isDigit = true := hhead
      have hne : ∀ {d : Char}, d.isDigit = false → c ≠ d := by
        rintro d hd rfl
        rw [hc] at hd
        cases hd
      rw [readExpr, if_neg (hne rfl), if_neg (hne rfl), if_neg (hne rfl), if_neg (hne rfl),
        if_pos hc, hnumber, hdrop, Int.toNat_of_nonneg (by omega), Int64.ofInt_toInt]

theorem readsBack_dotted {e : Expr} (h : e.IsDotted) : ReadsBack e := by
  intro bound rest hbound hrest
  obtain ⟨c, cs, heq, -⟩ := h.exists_head
  rw [heq, List.length_cons] at hbound
  obtain ⟨bound, rfl⟩ : ∃ inside, bound = inside + 2 := ⟨bound - 2, by omega⟩
  rw [readExpr_word h.isDottedChar_of_mem h.exists_head hrest.not_isDottedChar, readWord,
    h.wordValue?_render, String.ofList_toList, h.path_render, h.folded_eq]
  -- What ends a name is no opening parenthesis, so there is no call.
  refine if_neg fun hopen => ?_
  rcases hrest '(' hopen with h | h | h <;> cases h

/-- An expression in parentheses is read as the expression. -/
theorem readExpr_parentheses {arg : Expr} (harg : ReadsBack arg) {bound : Nat} (rest : List Char)
    (hbound : arg.render.toList.length + 2 < bound) :
    readExpr bound ('(' :: (arg.render.toList ++ ')' :: rest)) = some (arg.folded, rest) := by
  obtain ⟨bound, rfl⟩ : ∃ inside, bound = inside + 2 := ⟨bound - 2, by omega⟩
  show (readExpr (bound + 1) (arg.render.toList ++ ')' :: rest)).bind _ = _
  rw [harg (by omega) (ends_cons (.inr (.inr rfl)) rest)]
  rfl

theorem readsBack_binary (op : BinaryOp) {left right : Expr} (hleft : ReadsBack left)
    (hright : ReadsBack right) : ReadsBack (.binary op left right) := by
  intro bound rest hbound _
  rw [Expr.toList_render_binary] at hbound
  simp only [List.length_cons, List.length_append] at hbound
  obtain ⟨bound, rfl⟩ : ∃ inside, bound = inside + 2 := ⟨bound - 2, by omega⟩
  have htext : (Expr.binary op left right).render.toList ++ rest =
      '(' :: (left.render.toList ++ ' ' :: (op.symbol.toList ++ ' ' ::
        (right.render.toList ++ ')' :: rest))) := by
    rw [Expr.toList_render_binary]
    simp
  rw [htext]
  show (readExpr (bound + 1) (left.render.toList ++ _)).bind _ = _
  rw [hleft (by omega) (ends_cons (.inl rfl) _)]
  show (readSymbol (op.symbol.toList ++ _)).bind _ = _
  rw [readSymbol_symbol]
  show (readExpr bound (right.render.toList ++ ')' :: rest)).bind _ = _
  rw [hright (by omega) (ends_cons (.inr (.inr rfl)) rest), Expr.folded]
  rfl

/-- A sign is read on its own, but for a minus sign before digits. -/
theorem readExpr_sign {op : UnaryOp} {text : List Char}
    (h : op = .neg → text.head?.any Char.isDigit = false) (bound : Nat) :
    readExpr (bound + 1) (op.symbol.toList ++ text) =
      (readExpr bound text).map fun (arg, rest) => (.unary op arg, rest) := by
  cases op with
  | not => rfl
  | neg =>
    show (if text.head?.any Char.isDigit then _ else _) = _
    rw [h rfl]
    rfl

/-- The text of an expression begins with a digit only if it is an integer, so
    a minus sign before any other stays apart. -/
theorem head?_and_fold {arg : Expr} (h : arg.IsInline) (hsign : arg.leadsWithSign = false)
    (hinteger : ∀ n, arg ≠ .literal (.integer n)) (rest : List Char) :
    (arg.render.toList ++ rest).head?.any Char.isDigit = false ∧
      UnaryOp.fold .neg arg.folded = .unary .neg arg.folded := by
  have hdotted : ∀ {e : Expr}, e.IsDotted → ∀ rest,
      (e.render.toList ++ rest).head?.any Char.isDigit = false := by
    intro e he rest
    obtain ⟨c, cs, heq, -, hdigit⟩ := he.exists_head
    rw [heq]
    exact hdigit
  cases h with
  | null =>
    rw [Expr.folded]
    exact ⟨rfl, rfl⟩
  | integer n => exact absurd rfl (hinteger n)
  | string s =>
    rw [Expr.toList_render_string, Expr.folded]
    exact ⟨rfl, rfl⟩
  | bool b =>
    rw [Expr.folded]
    exact ⟨by cases b <;> rfl, rfl⟩
  | dotted h =>
    refine ⟨hdotted h rest, ?_⟩
    rw [h.folded_eq]
    cases h <;> rfl
  | binary =>
    rw [Expr.toList_render_binary, Expr.folded]
    exact ⟨rfl, rfl⟩
  | unary => cases hsign
  | call hcallee =>
    rw [Expr.toList_render_call, List.append_assoc, Expr.folded]
    exact ⟨hdotted hcallee _, rfl⟩

/-- A minus sign before an integer without a sign is read as part of it,
    unless it is zero. -/
theorem negative_toNat {n : Int64} (h : 0 ≤ n.toInt) :
    negative n.toInt.toNat = UnaryOp.fold .neg (.literal (.integer n)) := by
  rw [negative, UnaryOp.fold]
  by_cases hn : 0 < n.toInt
  · rw [if_neg (by omega), if_pos hn, Int.toNat_of_nonneg h, Int64.ofInt_neg, Int64.ofInt_toInt]
  · have hzero : n = 0 := by
      rw [← Int64.toInt_inj]
      show n.toInt = 0
      omega
    rw [if_pos (by omega), if_neg hn, hzero]

theorem readsBack_unary (op : UnaryOp) {arg : Expr} (h : arg.IsInline) (harg : ReadsBack arg) :
    ReadsBack (.unary op arg) := by
  intro bound rest hbound hrest
  have hlength : op.symbol.toList.length = 1 := by cases op <;> rfl
  obtain ⟨bound, rfl⟩ : ∃ inside, bound = inside + 1 := ⟨bound - 1, by omega⟩
  rw [Expr.folded]
  cases hsign : arg.leadsWithSign with
  | true =>
    -- Two signs are kept apart by parentheses.
    rw [Expr.toList_render_unary_of_sign hsign] at hbound ⊢
    simp only [List.length_append, List.length_cons, List.length_nil, hlength] at hbound
    have hparentheses : readExpr bound ('(' :: (arg.render.toList ++ ')' :: rest)) = _ :=
      readExpr_parentheses harg rest (by omega)
    rw [List.append_assoc, List.cons_append, List.append_assoc, List.singleton_append,
      readExpr_sign fun _ => rfl, hparentheses, Expr.fold_folded_of_sign hsign]
    rfl
  | false =>
    rw [Expr.toList_render_unary hsign] at hbound ⊢
    rw [List.length_append, hlength] at hbound
    rw [List.append_assoc]
    by_cases hinteger : op = .neg ∧ ∃ n, arg = .literal (.integer n)
    · obtain ⟨rfl, n, rfl⟩ := hinteger
      have hn : ¬ n.toInt < 0 := of_decide_eq_false hsign
      rw [Expr.toList_render_of_nonneg (by omega), show UnaryOp.neg.symbol.toList = ['-'] from rfl,
        List.singleton_append, readExpr_minus _ hrest, negative_toNat (by omega), Expr.folded]
    · have hapart : (op = .neg → (arg.render.toList ++ rest).head?.any Char.isDigit = false) ∧
          op.fold arg.folded = .unary op arg.folded := by
        cases op with
        | not => exact ⟨nofun, rfl⟩
        | neg =>
          have hother : ∀ n, arg ≠ .literal (.integer n) := fun n hn => hinteger ⟨rfl, n, hn⟩
          obtain ⟨hdigit, hfold⟩ := head?_and_fold h hsign hother rest
          exact ⟨fun _ => hdigit, hfold⟩
      rw [readExpr_sign hapart.1, harg (by omega) hrest, hapart.2]
      rfl

/-- Every text begins with something other than a closing parenthesis. -/
theorem exists_head_of_isInline {e : Expr} (h : e.IsInline) :
    ∃ c cs, e.render.toList = c :: cs ∧ c ≠ ')' := by
  have hdotted : ∀ {e : Expr}, e.IsDotted → ∃ c cs, e.render.toList = c :: cs ∧ c ≠ ')' := by
    intro e he
    obtain ⟨c, cs, heq, hc, -⟩ := he.exists_head
    refine ⟨c, cs, heq, ?_⟩
    rintro rfl
    cases hc
  cases h with
  | null => exact ⟨'n', _, rfl, by decide⟩
  | integer n =>
    have hdigits := head?_toDigits n.toInt.toNat []
    by_cases hn : n.toInt < 0
    · exact ⟨'-', _, Expr.toList_render_of_neg hn, by decide⟩
    · rw [Expr.toList_render_of_nonneg (by omega)]
      rw [List.append_nil] at hdigits
      cases hdigit : Nat.toDigits 10 n.toInt.toNat with
      | nil => exact absurd hdigit Nat.toDigits_ne_nil
      | cons c cs =>
        rw [hdigit] at hdigits
        refine ⟨c, cs, rfl, ?_⟩
        rintro rfl
        cases hdigits
  | string s => exact ⟨'"', _, Expr.toList_render_string s, by decide⟩
  | bool b => cases b <;> exact ⟨_, _, rfl, by decide⟩
  | dotted h => exact hdotted h
  | binary op => exact ⟨'(', _, Expr.toList_render_binary op _ _, by decide⟩
  | @unary op arg _ =>
    cases hsign : arg.leadsWithSign with
    | true =>
      rw [Expr.toList_render_unary_of_sign hsign]
      cases op <;> exact ⟨_, _, rfl, by decide⟩
    | false =>
      rw [Expr.toList_render_unary hsign]
      cases op <;> exact ⟨_, _, rfl, by decide⟩
  | call hcallee =>
    obtain ⟨c, cs, heq, hc⟩ := hdotted hcallee
    rw [Expr.toList_render_call, heq]
    exact ⟨c, _, rfl, hc⟩

/-- What stands between the parentheses of a call, argument by argument. -/
theorem toList_commaSeparated_cons (arg : Expr) (args : List Expr) (rest : List Char) :
    (commaSeparated (Expr.renderList (arg :: args))).toList ++ ')' :: rest =
      arg.render.toList ++ ((if args = [] then [] else [',', ' ']) ++
        ((commaSeparated (Expr.renderList args)).toList ++ ')' :: rest)) := by
  cases args with
  | nil => simp [commaSeparated, Expr.renderList]
  | cons next args => simp [commaSeparated, Expr.renderList, String.intercalate_cons_cons]

/-- Arguments are read back up to the closing parenthesis. -/
theorem readArgs_render {args : List Expr} (hinline : ∀ arg ∈ args, arg.IsInline)
    (hargs : ∀ arg ∈ args, ReadsBack arg) {bound : Nat} (rest : List Char)
    (hbound : (commaSeparated (Expr.renderList args)).toList.length + 1 < bound) :
    readArgs bound ((commaSeparated (Expr.renderList args)).toList ++ ')' :: rest) =
      some (Expr.listFolded args, rest) := by
  induction args generalizing bound with
  | nil =>
    obtain ⟨bound, rfl⟩ : ∃ inside, bound = inside + 1 := ⟨bound - 1, by omega⟩
    rw [Expr.listFolded, readArgs]
    exact if_pos rfl
  | cons arg args ih =>
    obtain ⟨hhead, hinline⟩ := List.forall_mem_cons.mp hinline
    obtain ⟨harg, hargs⟩ := List.forall_mem_cons.mp hargs
    obtain ⟨c, cs, heq, hc⟩ := exists_head_of_isInline hhead
    obtain ⟨bound, rfl⟩ : ∃ inside, bound = inside + 1 := ⟨bound - 1, by omega⟩
    have hlength := congrArg List.length (toList_commaSeparated_cons arg args [])
    have hpos : 0 < arg.render.toList.length := by
      rw [heq]
      exact Nat.succ_pos _
    simp only [List.length_append, List.length_cons, List.length_nil] at hlength
    generalize hbehind : (if args = [] then [] else [',', ' ']) ++
      ((commaSeparated (Expr.renderList args)).toList ++ ')' :: rest) = behind
    -- Behind an argument stands a comma with a blank, or the end.
    have hends : Ends behind ∧
        afterComma behind = (commaSeparated (Expr.renderList args)).toList ++ ')' :: rest := by
      rw [← hbehind]
      cases args with
      | nil => exact ⟨ends_cons (.inr (.inr rfl)) _, rfl⟩
      | cons next args => exact ⟨ends_cons (.inr (.inl rfl)) _, rfl⟩
    have hrest : readArgs bound _ = _ := ih hinline hargs (by omega)
    have hopen : (arg.render.toList ++ behind).head? ≠ some ')' := by
      rw [heq]
      exact fun h => hc (Option.some.inj h)
    rw [toList_commaSeparated_cons, hbehind, readArgs, if_neg hopen, harg (by omega) hends.1,
      Expr.listFolded]
    show (readArgs bound (afterComma behind)).map _ = _
    rw [hends.2, hrest]
    rfl

theorem readsBack_call {callee : Expr} (hcallee : callee.IsDotted) {args : List Expr}
    (hinline : ∀ arg ∈ args, arg.IsInline) (hargs : ∀ arg ∈ args, ReadsBack arg) :
    ReadsBack (.call callee args .plain) := by
  intro bound rest hbound _
  obtain ⟨c, cs, heq, -⟩ := hcallee.exists_head
  have hname : 0 < callee.render.toList.length := by
    rw [heq]
    exact Nat.succ_pos _
  rw [Expr.toList_render_call] at hbound ⊢
  simp only [List.length_append, List.length_cons, List.length_nil] at hbound
  obtain ⟨bound, rfl⟩ : ∃ inside, bound = inside + 2 := ⟨bound - 2, by omega⟩
  have hread : readArgs bound _ = _ := readArgs_render hinline hargs rest (by omega)
  simp only [List.append_assoc, List.cons_append]
  rw [readExpr_word hcallee.isDottedChar_of_mem hcallee.exists_head ?_, readWord,
    hcallee.wordValue?_render]
  · show (if some '(' = some '(' then _ else _) = _
    rw [if_pos rfl, List.tail_cons, List.nil_append, hread, String.ofList_toList,
      hcallee.path_render, Expr.folded, hcallee.folded_eq]
    rfl
  · intro d hd
    obtain rfl := Option.mem_some.mp hd
    rfl

mutual

/-- **Expressions are read back from their texts.** -/
theorem readExpr_render : ∀ {e : Expr}, e.IsInline → ReadsBack e
  | .literal .null, _ => readsBack_value rfl rfl (by decide)
  | .literal (.integer n), _ => readsBack_integer n
  | .literal (.float x), h => by
    cases h with
    | dotted h => cases h
  | .literal (.string s), _ => readsBack_string s
  | .literal (.bool true), _ => readsBack_value rfl rfl (by decide)
  | .literal (.bool false), _ => readsBack_value rfl rfl (by decide)
  | .ident name, h => by
    cases h with
    | dotted h => exact readsBack_dotted h
  | .member object property, h => by
    cases h with
    | dotted h => exact readsBack_dotted h
  | .binary op left right, h => by
    cases h with
    | dotted h => cases h
    | binary _ hleft hright =>
      exact readsBack_binary op (readExpr_render hleft) (readExpr_render hright)
  | .unary op arg, h => by
    cases h with
    | dotted h => cases h
    | unary _ harg => exact readsBack_unary op harg (readExpr_render harg)
  | .call callee args mode, h => by
    cases h with
    | dotted h => cases h
    | call hcallee hargs =>
      exact readsBack_call hcallee hargs (readExpr_renderList hargs)
  | .closure params body isAsync, h => by
    cases h with
    | dotted h => cases h

theorem readExpr_renderList : ∀ {es : List Expr}, (∀ e ∈ es, e.IsInline) → ∀ e ∈ es, ReadsBack e
  | [], _ => List.forall_mem_nil _
  | first :: es, h => by
    obtain ⟨hfirst, hrest⟩ := List.forall_mem_cons.mp h
    exact List.forall_mem_cons.mpr ⟨readExpr_render hfirst, readExpr_renderList hrest⟩

end

end Inline

/-! ## Section 7: Arguments -/

/-- Settings whose names are plain: a name for the context, and a word for
    each attribute. -/
structure Settings.HasPlainNames (settings : Settings) : Prop where
  /-- The context has a name. -/
  context : Text.isName settings.conventions.context = true
  /-- Attributes are words, without dots. -/
  property : ∀ {opcode name : String}, settings.tables.getter? opcode = some name →
    Text.isWord name = true

/-- Arguments without doubles, in which every box and every opcode that becomes
    a function has a name. -/
inductive Arg.IsPlain (settings : Settings) : Arg → Prop where
  | null : IsPlain settings .null
  | literal {v : Value} (h : ∀ x, v ≠ .float x) : IsPlain settings (.literal v)
  | box {name : String} (h : Text.isName name = true) : IsPlain settings (.box name)
  | apply {opcode : String} {args : List Arg}
      (h : settings.tables.getter? opcode = none → Operator.ofOpcode? opcode = none →
        Text.isName opcode = true)
      (hargs : ∀ arg ∈ args, IsPlain settings arg) : IsPlain settings (.apply opcode args)

theorem Expr.isDotted_of_mem_mathFunctions {path : String} (h : path ∈ mathFunctions) :
    (Expr.path path).IsDotted := by
  simp only [mathFunctions, List.mem_cons, List.not_mem_nil, or_false] at h
  rcases h with rfl | rfl | rfl | rfl <;> exact .member (.ident (by decide)) (by decide)

theorem isInline_operandAt {operands : List Expr} (h : ∀ e ∈ operands, e.IsInline) (n : Nat) :
    (operandAt operands n).IsInline := by
  rw [operandAt, List.getD_eq_getElem?_getD]
  cases hn : operands[n]? with
  | none => exact .null
  | some e => exact h e (List.mem_of_getElem? hn)

theorem Settings.isInline_applyOpcode {settings : Settings} (hsettings : settings.HasPlainNames)
    {opcode : String} {operands : List Expr}
    (hopcode : settings.tables.getter? opcode = none → Operator.ofOpcode? opcode = none →
      Text.isName opcode = true)
    (h : ∀ e ∈ operands, e.IsInline) : (settings.applyOpcode opcode operands).IsInline := by
  unfold Settings.applyOpcode
  cases hgetter : settings.tables.getter? opcode with
  | some name => exact .dotted (.member (.ident hsettings.context) (hsettings.property hgetter))
  | none =>
    cases hoperator : Operator.ofOpcode? opcode with
    | none => exact .call (.ident (hopcode hgetter hoperator)) h
    | some operator =>
      cases operator with
      | binary op => exact .binary op (isInline_operandAt h 0) (isInline_operandAt h 1)
      | unary op => exact .unary op (isInline_operandAt h 0)
      | function path =>
        exact .call (Expr.isDotted_of_mem_mathFunctions (Operator.mem_mathFunctions hoperator)) h

mutual

/-- Plain arguments become expressions that are read back. -/
theorem Arg.isInline_toExpr {settings : Settings} (hsettings : settings.HasPlainNames) :
    ∀ {arg : Arg}, arg.IsPlain settings → (arg.toExpr settings).IsInline
  | .null, _ => by
    rw [Arg.toExpr]
    exact .null
  | .literal v, h => by
    cases h with
    | literal hfloat =>
      rw [Arg.toExpr]
      cases v with
      | null => exact .null
      | integer n => exact .integer n
      | float x => exact absurd rfl (hfloat x)
      | string s => exact .string s
      | bool b => exact .bool b
  | .box name, h => by
    cases h with
    | box hname =>
      rw [Arg.toExpr]
      exact .dotted (.ident hname)
  | .apply opcode args, h => by
    cases h with
    | apply hopcode hargs =>
      rw [Arg.toExpr]
      exact Settings.isInline_applyOpcode hsettings hopcode
        (Arg.isInline_toExprs hsettings hargs)

theorem Arg.isInline_toExprs {settings : Settings} (hsettings : settings.HasPlainNames) :
    ∀ {args : List Arg}, (∀ arg ∈ args, arg.IsPlain settings) →
      ∀ e ∈ Arg.toExprs settings args, e.IsInline
  | [], _ => by
    rw [Arg.toExprs]
    exact List.forall_mem_nil _
  | arg :: args, h => by
    obtain ⟨harg, hargs⟩ := List.forall_mem_cons.mp h
    rw [Arg.toExprs]
    exact List.forall_mem_cons.mpr
      ⟨Arg.isInline_toExpr hsettings harg, Arg.isInline_toExprs hsettings hargs⟩

end

/-! ## Section 8: Texts tell expressions apart -/

/-- **The texts of expressions are unambiguous.** Two expressions without
    doubles and closures, with plain names and plain calls of dotted names,
    that have the same text are the same once every minus sign before a
    positive integer is part of it. What plain arguments become is of this
    kind. -/
theorem Expr.folded_eq_of_render_eq :
    (∀ e e' : Expr, e.IsInline → e'.IsInline → e.render = e'.render → e.folded = e'.folded) ∧
    (∀ (settings : Settings) (arg : Arg), settings.HasPlainNames → arg.IsPlain settings →
      (arg.toExpr settings).IsInline) := by
  refine ⟨fun e e' h h' heq => ?_, fun settings arg hsettings harg => ?_⟩
  · have hends : Inline.Ends [] := by
      intro c hc
      cases hc
    have hread := Inline.readExpr_render h (Nat.lt_succ_self _) hends
    have hread' := Inline.readExpr_render h' (Nat.lt_succ_self _) hends
    -- Both are read from the same text.
    rw [heq, hread'] at hread
    exact (congrArg Prod.fst (Option.some.inj hread)).symm
  · exact Arg.isInline_toExpr hsettings harg

theorem Expr.folded_eq_of_render_eq_signs :
    let path : Expr := .member (.ident "Math") "abs"
    let e : Expr := .call path [.unary .neg (.unary .neg (.literal (.integer 3))),
      .binary .sub (.ident "x") (.literal (.string "\", -(\\ é"))] .plain
    let e' : Expr := .call path [.unary .neg (.literal (.integer (-3))),
      .binary .sub (.ident "x") (.literal (.string "\", -(\\ é"))] .plain
    let arg : Arg := .apply "abs" [.apply "key" [], .box "_x1"]
    (e.IsInline ∧ e'.IsInline ∧ e.render = e'.render ∧ e.folded = e'.folded) ∧
      (Settings.HasPlainNames {} ∧ arg.IsPlain {} ∧ (arg.toExpr {}).IsInline) := by
  intro path e e' arg
  have hpath : path.IsDotted := .member (.ident (by decide)) (by decide)
  have hright : (Expr.binary .sub (.ident "x") (.literal (.string "\", -(\\ é"))).IsInline :=
    .binary _ (.dotted (.ident (by decide))) (.string _)
  have he : e.IsInline := by
    refine .call hpath ?_
    rintro a (_ | ⟨_, _ | ⟨_, ⟨⟩⟩⟩)
    · exact .unary _ (.unary _ (.integer 3))
    · exact hright
  have he' : e'.IsInline := by
    refine .call hpath ?_
    rintro a (_ | ⟨_, _ | ⟨_, ⟨⟩⟩⟩)
    · exact .unary _ (.integer (-3))
    · exact hright
  have hrender : e.render = e'.render := by decide +kernel
  have hsettings : Settings.HasPlainNames {} := by
    refine ⟨by decide, fun {opcode name} h => ?_⟩
    have hall : ∀ entry ∈ LookupTables.musicGetters, Text.isWord entry.2 = true := by decide
    exact hall _ (Entries.mem_of_get?_eq_some h)
  have harg : arg.IsPlain {} := by
    refine .apply (fun _ h => ?_) ?_
    · cases h
    · rintro a (_ | ⟨_, _ | ⟨_, ⟨⟩⟩⟩)
      · refine .apply (fun h => ?_) (List.forall_mem_nil _)
        cases h
      · exact .box (by decide)
  exact ⟨⟨he, he', hrender, Expr.folded_eq_of_render_eq.1 e e' he he' hrender⟩, hsettings, harg,
    Expr.folded_eq_of_render_eq.2 {} arg hsettings harg⟩

end BlockFlow
