import BlockFlow.Json.Reader
import BlockFlow.Proofs.Json.Lexing

/-! # The grammar of scalars

    Which texts are scalars of JSON: words, numbers and strings, with all the
    ways there are to write them. This is more than is ever written.

    - `IsScalar` is the grammar, apart from any machine.
    - Every text of the grammar is cut into one token, which is a value of its
      own (`IsScalar.exists_leaf`). It may name a number beyond the doubles, or
      hold half of a surrogate pair: then it cannot be read, only passed over.
    - What the writer puts down for a string is a literal of the grammar
      (`Literal.of`), and is read as that string. -/

namespace BlockFlow.Json

/-! ## Section 1: The grammar -/

/-- A hexadecimal digit. -/
def IsHexDigit (c : Char) : Prop :=
  c.isDigit = true ∨ ('a' ≤ c ∧ c ≤ 'f') ∨ ('A' ≤ c ∧ c ≤ 'F')

instance : DecidablePred IsHexDigit := fun _ => inferInstanceAs (Decidable (_ ∨ _))

/-- A piece of a string between its quotation marks. -/
inductive IsPiece : List Char → Prop where
  /-- A character that stands for itself. -/
  | plain {c : Char} (hquote : c ≠ '"') (hslash : c ≠ '\\') (hcontrol : ¬c.toNat < 0x20) :
      IsPiece [c]
  /-- An escape of one letter. -/
  | letter {c : Char} (h : c ∈ ['"', '\\', '/', 'b', 'f', 'n', 'r', 't']) : IsPiece ['\\', c]
  /-- A sixteen-bit unit. -/
  | unit {a b c d : Char} (ha : IsHexDigit a) (hb : IsHexDigit b) (hc : IsHexDigit c)
      (hd : IsHexDigit d) : IsPiece ['\\', 'u', a, b, c, d]

/-- A string as it is written, piece by piece. -/
structure Literal where
  /-- What stands between the quotation marks. -/
  pieces : List (List Char)
  /-- The pieces are of the grammar. -/
  valid : ∀ piece ∈ pieces, IsPiece piece

/-- The text of a literal. -/
def Literal.text (literal : Literal) : List Char := '"' :: literal.pieces.flatten ++ ['"']

/-- A scalar: a word, a number or a string. -/
inductive IsScalar : List Char → Prop where
  /-- The word `null`. -/
  | null : IsScalar "null".toList
  /-- The word `true` or `false`. -/
  | bool (b : Bool) : IsScalar (if b then "true".toList else "false".toList)
  /-- A number. -/
  | number {text : List Char} (h : IsNumber text) : IsScalar text
  /-- A string. -/
  | string (literal : Literal) : IsScalar literal.text

/-! ## Section 2: Strings -/

theorem IsHexDigit.exists_hexValue {c : Char} (h : IsHexDigit c) : ∃ v, hexValue? c = some v := by
  unfold hexValue?
  split_ifs with hdigit hlower hupper
  · exact ⟨_, rfl⟩
  · exact ⟨_, rfl⟩
  · exact ⟨_, rfl⟩
  · rcases h with h | h | h <;> contradiction

theorem IsHexDigit.utf8Size_eq_one {c : Char} (h : IsHexDigit c) : c.utf8Size = 1 := by
  -- The machine counts bytes behind `\u`, so it matters that digits take one each.
  have hle : c.val ≤ 'f'.val := by
    rcases h with h | ⟨-, h⟩ | ⟨-, h⟩
    · simp only [Char.isDigit, Bool.and_eq_true, decide_eq_true_eq] at h
      exact UInt32.le_trans h.2 (by decide)
    · exact h
    · exact UInt32.le_trans h (by decide)
  exact Char.utf8Size_eq_one_iff.mpr (UInt32.le_trans hle (by decide))

/-- A digit behind `\u`, with others to come. -/
theorem tokensIn_hex {c : Char} (h : IsHexDigit c) (s : Spelling) {bytes : Nat} (hbytes : bytes < 3)
    (v : Nat) :
    ∃ v', ∀ rest, tokensIn (.hex s bytes (some v)) (c :: rest) =
      tokensIn (.hex s (bytes + 1) (some v')) rest := by
  obtain ⟨digit, hdigit⟩ := h.exists_hexValue
  refine ⟨16 * v + digit, fun rest => ?_⟩
  have hstep : Lexer.step ⟨.hex s bytes (some v), []⟩ c =
      ⟨.hex s (bytes + 1) (some (16 * v + digit)), []⟩ := by
    show Lexer.inHex _ s bytes (some v) c = _
    rw [Lexer.inHex, h.utf8Size_eq_one, hdigit]
    exact if_pos (by omega)
  exact tokensIn_cons rest hstep

/-- The last digit behind `\u`. -/
theorem tokensIn_lastHex {c : Char} (h : IsHexDigit c) (s : Spelling) (v : Nat) :
    ∃ u, ∀ rest, tokensIn (.hex s 3 (some v)) (c :: rest) =
      tokensIn (.string (s.pushUnit u)) rest := by
  obtain ⟨digit, hdigit⟩ := h.exists_hexValue
  refine ⟨16 * v + digit, fun rest => ?_⟩
  have hstep : Lexer.step ⟨.hex s 3 (some v), []⟩ c =
      ⟨.string (s.pushUnit (16 * v + digit)), []⟩ := by
    show Lexer.inHex _ s 3 (some v) c = _
    rw [Lexer.inHex, h.utf8Size_eq_one, hdigit]
    rfl
  exact tokensIn_cons rest hstep

/-- A piece leads from the middle of a string to the middle of a string. -/
theorem IsPiece.exists_tokensIn {piece : List Char} (h : IsPiece piece) (s : Spelling) :
    ∃ s', ∀ rest, tokensIn (.string s) (piece ++ rest) = tokensIn (.string s') rest := by
  cases h with
  | @plain c hquote hslash hcontrol =>
    have hstep : Lexer.step ⟨.string s, []⟩ c = ⟨.string (s.settle.push c), []⟩ := by
      show Lexer.inString _ s c = _
      rw [Lexer.inString, if_neg hquote, if_neg hslash, if_neg hcontrol]
      rfl
    exact ⟨s.settle.push c, fun rest => tokensIn_cons rest hstep⟩
  | @letter c h =>
    obtain ⟨plain, hplain, hunit⟩ : ∃ plain, unescape? c = some plain ∧ c ≠ 'u' := by
      simp only [List.mem_cons, List.not_mem_nil, or_false] at h
      rcases h with rfl | rfl | rfl | rfl | rfl | rfl | rfl | rfl <;> exact ⟨_, rfl, by decide⟩
    have hstep : Lexer.step ⟨.escape s, []⟩ c = ⟨.string (s.settle.push plain), []⟩ := by
      show Lexer.inEscape _ s c = _
      rw [Lexer.inEscape, if_neg hunit, hplain]
      rfl
    refine ⟨s.settle.push plain, fun rest => ?_⟩
    rw [List.cons_append, tokensIn_cons _ (show _ = Lexer.mk (.escape s) [] from rfl)]
    exact tokensIn_cons rest hstep
  | unit ha hb hc hd =>
    -- Three digits leave the machine waiting, and the fourth completes the unit.
    obtain ⟨_, hfirst⟩ := tokensIn_hex ha s (show 0 < 3 by decide) 0
    obtain ⟨_, hsecond⟩ := tokensIn_hex hb s (show 1 < 3 by decide) _
    obtain ⟨_, hthird⟩ := tokensIn_hex hc s (show 2 < 3 by decide) _
    obtain ⟨u, hlast⟩ := tokensIn_lastHex hd s _
    refine ⟨s.pushUnit u, fun rest => ?_⟩
    simp only [List.cons_append, List.nil_append]
    rw [tokensIn_cons _ (show _ = Lexer.mk (.escape s) [] from rfl),
      tokensIn_cons _ (show _ = Lexer.mk (.hex s 0 (some 0)) [] from rfl)]
    exact (hfirst _).trans ((hsecond _).trans ((hthird _).trans (hlast rest)))

theorem exists_tokensIn_pieces {pieces : List (List Char)} (h : ∀ piece ∈ pieces, IsPiece piece)
    (s : Spelling) :
    ∃ s', ∀ rest, tokensIn (.string s) (pieces.flatten ++ rest) = tokensIn (.string s') rest := by
  induction pieces generalizing s with
  | nil => exact ⟨s, fun _ => rfl⟩
  | cons piece pieces ih =>
    obtain ⟨hpiece, h⟩ := List.forall_mem_cons.mp h
    obtain ⟨t, ht⟩ := hpiece.exists_tokensIn s
    obtain ⟨t', ht'⟩ := ih h t
    refine ⟨t', fun rest => ?_⟩
    rw [List.flatten_cons, List.append_assoc, ht, ht']

namespace Literal

/-- A literal is one token, whatever follows. -/
theorem exists_token (literal : Literal) :
    ∃ r, ∀ rest, tokens (literal.text ++ rest) = .string r :: tokens rest := by
  -- Whatever the pieces leave behind, the quotation mark makes a token of it: a
  -- flaw is noted in the string and breaks nothing.
  obtain ⟨s, hs⟩ := exists_tokensIn_pieces literal.valid .empty
  obtain ⟨r, hr⟩ : ∃ r, s.token = .string r := ⟨_, rfl⟩
  have hend : Lexer.step ⟨.string s, []⟩ '"' = ⟨.between, [.string r]⟩ := by
    rw [← hr]
    rfl
  refine ⟨r, fun rest => ?_⟩
  rw [text, List.cons_append, List.cons_append, List.append_assoc, tokens_eq_tokensIn]
  rw [tokensIn_cons _ (show _ = Lexer.mk (.string .empty) [] from rfl)]
  rw [hs, List.singleton_append, tokensIn_cons _ hend]
  rfl

/-- What is read where a literal stands. -/
def reread (literal : Literal) : Except Fault String :=
  match tokens literal.text with
  | [.string r] => r
  | _ => .error .loneSurrogate

theorem tokens_text (literal : Literal) (rest : List Char) :
    tokens (literal.text ++ rest) = .string literal.reread :: tokens rest := by
  obtain ⟨r, hr⟩ := literal.exists_token
  -- `reread` looks at the literal alone, where it is the same token.
  have hself := hr []
  rw [List.append_nil] at hself
  have hreread : literal.reread = r := by
    rw [reread, hself]
    rfl
  rw [hr, hreread]

/-- The pieces that the writer puts down. -/
theorem isPiece_escapeChar (c : Char) : IsPiece (escapeChar c) := by
  unfold escapeChar
  split_ifs with hquote hslash hback htab hline hpage hreturn hcontrol
  · exact .letter (by decide)
  · exact .letter (by decide)
  · exact .letter (by decide)
  · exact .letter (by decide)
  · exact .letter (by decide)
  · exact .letter (by decide)
  · exact .letter (by decide)
  · -- A control character without a letter of its own.
    generalize c.toNat = n at *
    interval_cases n <;> exact .unit (by decide) (by decide) (by decide) (by decide)
  · exact .plain hquote hslash hcontrol

/-- The literal that the writer puts down for a string. -/
def of (s : String) : Literal where
  pieces := s.toList.map escapeChar
  valid := by
    intro piece hpiece
    obtain ⟨c, -, rfl⟩ := List.mem_map.mp hpiece
    exact isPiece_escapeChar c

theorem text_of (s : String) : (of s).text = stringText s := by
  rw [text, of, stringText, List.flatMap_def]

theorem reread_of (s : String) : (of s).reread = .ok s := by
  have htokens := tokens_stringText s []
  rw [List.append_nil, ← text_of] at htokens
  rw [reread, htokens]
  rfl

end Literal

/-! ## Section 3: Scalars as values -/

/-- A token that is a value of its own, and the node of the value. -/
inductive Leaf : Token → Node → Prop where
  /-- The word `null`. -/
  | null : Leaf .null .null
  /-- The word `true` or `false`. -/
  | bool (b : Bool) : Leaf (.bool b) (.bool b)
  /-- A number. -/
  | number (n : Number) : Leaf (.number (.ok n)) (.number n)
  /-- A number that cannot be read. -/
  | hugeNumber (fault : Fault) : Leaf (.number (.error fault)) (.unfit fault)
  /-- A string. -/
  | string (s : String) : Leaf (.string (.ok s)) (.string s)
  /-- A string that cannot be read. -/
  | flawedString (fault : Fault) : Leaf (.string (.error fault)) (.unfit fault)

namespace Leaf

variable {token : Token} {node : Node}

theorem ne_closeList (h : Leaf token node) : token ≠ .closeList := by
  cases h <;> exact Token.noConfusion

theorem step_value (h : Leaf token node) (frames : List Frame) :
    (Builder.value frames).step token = Builder.deliver node frames := by
  cases h <;> rfl

/-- A scalar can be passed over, even where it cannot be read. -/
theorem pass_eq_ok (h : Leaf token node) : pass node = .ok () := by
  cases h <;> rfl

end Leaf

theorem exists_leaf_number (r : Except Fault Number) : ∃ node, Leaf (.number r) node := by
  cases r with
  | ok n => exact ⟨_, .number n⟩
  | error fault => exact ⟨_, .hugeNumber fault⟩

theorem exists_leaf_string (r : Except Fault String) : ∃ node, Leaf (.string r) node := by
  cases r with
  | ok s => exact ⟨_, .string s⟩
  | error fault => exact ⟨_, .flawedString fault⟩

/-- **A scalar is one token**, where the text is delimited. -/
theorem IsScalar.exists_leaf {text : List Char} (h : IsScalar text) :
    ∃ token node, Leaf token node ∧
      ∀ rest, Delimited rest → tokens (text ++ rest) = token :: tokens rest := by
  cases h with
  | null => exact ⟨_, _, .null, fun rest _ => tokens_null rest⟩
  | bool b => exact ⟨_, _, .bool b, fun rest _ => tokens_bool b rest⟩
  | number h =>
    obtain ⟨phase, f, hend, htext⟩ := h.exists_phase
    obtain ⟨node, hleaf⟩ := exists_leaf_number _
    refine ⟨numberToken phase f, node, hleaf, fun rest hrest => ?_⟩
    rw [htext, tokensIn_number hend f hrest]
  | string literal =>
    obtain ⟨node, hleaf⟩ := exists_leaf_string literal.reread
    exact ⟨_, node, hleaf, fun rest _ => literal.tokens_text rest⟩

end BlockFlow.Json
