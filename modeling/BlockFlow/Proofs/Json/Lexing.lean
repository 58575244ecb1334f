import BlockFlow.Json.Token
import BlockFlow.Json.Writer
import Mathlib.Data.List.Basic
import Mathlib.Tactic.IntervalCases
import Mathlib.Tactic.SplitIfs

/-! # Cutting marks, strings and numbers

    What the writer puts down for a string or a number is cut into one token.

    - The machine only adds tokens, so what stands behind a token can be cut
      by itself (`tokensIn_cons`).
    - A string is followed character by character (`tokensIn_escapeChar`).
    - Whatever the grammar of numbers allows goes through the phases of a
      number (`IsNumber.exists_phase`), so a numeral does. A number has no mark at
      its end, so something must follow that cannot extend it (`Delimited`).
      The writer puts a comma, a bracket, a brace or a blank there.
    - A whole number is read as itself (`reread_whole`). A double need not be,
      since reading one rounds more than once. What is read in its place is
      called `reread`. -/

namespace BlockFlow.Json

/-! ## Section 1: The machine only adds tokens -/

namespace Lexer

/-- The machine with older tokens below its own. -/
def above (lexer : Lexer) (older : List Token) : Lexer :=
  { lexer with tokens := lexer.tokens ++ older }

variable (lexer : Lexer) (older : List Token)

@[simp] theorem emit_above (token : Token) :
    (lexer.emit token).above older = (lexer.above older).emit token := rfl

@[simp] theorem fail_above (token : Token) :
    (lexer.fail token).above older = (lexer.above older).fail token := rfl

@[simp] theorem goTo_above (mode : Mode) :
    (lexer.goTo mode).above older = (lexer.above older).goTo mode := rfl

theorem begin_above (c : Char) : (lexer.begin c).above older = (lexer.above older).begin c := by
  simp only [begin, apply_ite (above · older), emit_above, fail_above, goTo_above]

theorem inWord_above (rest : List Char) (token : Token) (c : Char) :
    (lexer.inWord rest token c).above older = (lexer.above older).inWord rest token c := by
  cases rest with
  | nil => exact begin_above lexer older c
  | cons next rest =>
    simp only [inWord, apply_ite (above · older), emit_above, fail_above, goTo_above]

theorem inNumber_above (phase : Phase) (f : Figures) (c : Char) :
    (lexer.inNumber phase f c).above older = (lexer.above older).inNumber phase f c := by
  unfold inNumber
  rcases phase.step f c with ⟨next, g⟩ | _ | _
  · rfl
  · exact begin_above (lexer.emit (numberToken phase f)) older c
  · rfl

theorem inString_above (s : Spelling) (c : Char) :
    (lexer.inString s c).above older = (lexer.above older).inString s c := by
  simp only [inString, apply_ite (above · older), emit_above, fail_above, goTo_above]

theorem inEscape_above (s : Spelling) (c : Char) :
    (lexer.inEscape s c).above older = (lexer.above older).inEscape s c := by
  unfold inEscape
  rw [apply_ite (above · older)]
  cases unescape? c <;> rfl

theorem inHex_above (s : Spelling) (bytes : Nat) (value : Option Nat) (c : Char) :
    (lexer.inHex s bytes value c).above older = (lexer.above older).inHex s bytes value c := by
  unfold inHex
  dsimp only
  rw [apply_ite (above · older)]
  cases value.bind fun v => (hexValue? c).map (16 * v + ·) <;> rfl

/-- Older tokens do not matter to a step. -/
theorem step_above (c : Char) : (lexer.step c).above older = (lexer.above older).step c := by
  obtain ⟨mode, tokens⟩ := lexer
  cases mode with
  | between => exact begin_above _ older c
  | word rest token => exact inWord_above _ older rest token c
  | number phase f => exact inNumber_above _ older phase f c
  | string s => exact inString_above _ older s c
  | escape s => exact inEscape_above _ older s c
  | hex s bytes value => exact inHex_above _ older s bytes value c
  | stopped => rfl

theorem foldl_step_above (text : List Char) :
    (text.foldl step lexer).above older = text.foldl step (lexer.above older) := by
  induction text generalizing lexer with
  | nil => rfl
  | cons c text ih => rw [List.foldl_cons, List.foldl_cons, ih, step_above]

theorem finish_above : (lexer.above older).finish = older.reverse ++ lexer.finish := by
  obtain ⟨mode, tokens⟩ := lexer
  cases mode with
  | number phase f => cases h : phase.mayEnd <;> simp [finish, above, h]
  | _ => simp [finish, above]

end Lexer

/-- The tokens of the rest of a text, from the middle of something on. -/
def tokensIn (mode : Mode) (text : List Char) : List Token :=
  (text.foldl Lexer.step ⟨mode, []⟩).finish

theorem tokens_eq_tokensIn (text : List Char) : tokens text = tokensIn .between text := rfl

/-- The tokens that a character completes come first. -/
theorem tokensIn_cons {mode next : Mode} {done : List Token} {c : Char} (text : List Char)
    (h : Lexer.step ⟨mode, []⟩ c = ⟨next, done⟩) :
    tokensIn mode (c :: text) = done.reverse ++ tokensIn next text := by
  -- What is done lies below an empty row of tokens, where nothing touches it.
  have habove : Lexer.step ⟨mode, []⟩ c = Lexer.above ⟨next, []⟩ done := h
  rw [tokensIn, List.foldl_cons, habove, ← Lexer.foldl_step_above, Lexer.finish_above]
  rfl

/-! ## Section 2: Marks, blanks and strings -/

theorem tokens_openList (rest : List Char) : tokens ('[' :: rest) = .openList :: tokens rest :=
  tokensIn_cons rest rfl

theorem tokens_closeList (rest : List Char) : tokens (']' :: rest) = .closeList :: tokens rest :=
  tokensIn_cons rest rfl

theorem tokens_openObject (rest : List Char) :
    tokens ('\x7b' :: rest) = .openObject :: tokens rest :=
  tokensIn_cons rest rfl

theorem tokens_closeObject (rest : List Char) :
    tokens ('\x7d' :: rest) = .closeObject :: tokens rest :=
  tokensIn_cons rest rfl

theorem tokens_comma (rest : List Char) : tokens (',' :: rest) = .comma :: tokens rest :=
  tokensIn_cons rest rfl

theorem tokens_colon (rest : List Char) : tokens (':' :: rest) = .colon :: tokens rest :=
  tokensIn_cons rest rfl

theorem tokens_null (rest : List Char) : tokens ("null".toList ++ rest) = .null :: tokens rest := by
  show tokensIn .between ('n' :: 'u' :: 'l' :: 'l' :: rest) = _
  rw [tokensIn_cons _ rfl, tokensIn_cons _ rfl, tokensIn_cons _ rfl, tokensIn_cons _ rfl]
  rfl

theorem tokens_bool (b : Bool) (rest : List Char) :
    tokens ((if b then "true".toList else "false".toList) ++ rest) = .bool b :: tokens rest := by
  cases b with
  | true =>
    show tokensIn .between ('t' :: 'r' :: 'u' :: 'e' :: rest) = _
    rw [tokensIn_cons _ rfl, tokensIn_cons _ rfl, tokensIn_cons _ rfl, tokensIn_cons _ rfl]
    rfl
  | false =>
    show tokensIn .between ('f' :: 'a' :: 'l' :: 's' :: 'e' :: rest) = _
    rw [tokensIn_cons _ rfl, tokensIn_cons _ rfl, tokensIn_cons _ rfl, tokensIn_cons _ rfl,
      tokensIn_cons _ rfl]
    rfl

/-- A character that stands between tokens only. -/
def IsBlank (c : Char) : Prop := c = ' ' ∨ c = '\n' ∨ c = '\t' ∨ c = '\r'

theorem tokens_blanks {blanks : List Char} (h : ∀ c ∈ blanks, IsBlank c) (rest : List Char) :
    tokens (blanks ++ rest) = tokens rest := by
  induction blanks with
  | nil => rfl
  | cons c blanks ih =>
    have hstep : Lexer.step ⟨.between, []⟩ c = ⟨.between, []⟩ := if_pos (h c List.mem_cons_self)
    rw [List.cons_append, tokens_eq_tokensIn, tokensIn_cons _ hstep]
    exact ih fun c hc => h c (List.mem_cons_of_mem _ hc)

/-- The part of a string that has been read, without faults. -/
def Spelling.of (chars : List Char) : Spelling := ⟨.ok chars, none⟩

/-- Control characters take four hexadecimal digits, and come back. -/
theorem tokensIn_control {n : Nat} (hn : n < 0x20) (chars rest : List Char) :
    tokensIn (.string (.of chars))
        ('\\' :: 'u' :: (Nat.toDigits 16 n).leftpad 4 '0' ++ rest) =
      tokensIn (.string (.of (Char.ofNat n :: chars))) rest := by
  interval_cases n <;> rfl

/-- A character of a string comes back from how it is written. -/
theorem tokensIn_escapeChar (c : Char) (chars rest : List Char) :
    tokensIn (.string (.of chars)) (escapeChar c ++ rest) =
      tokensIn (.string (.of (c :: chars))) rest := by
  unfold escapeChar
  split_ifs with hquote hslash hback htab hline hpage hreturn hcontrol
  · subst hquote; rfl
  · subst hslash; rfl
  · subst hback; rfl
  · subst htab; rfl
  · subst hline; rfl
  · subst hpage; rfl
  · subst hreturn; rfl
  · -- A control character without a letter of its own.
    have hchar := tokensIn_control hcontrol chars rest
    rw [Char.ofNat_toNat] at hchar
    exact hchar
  · have hstep : Lexer.step ⟨.string (.of chars), []⟩ c = ⟨.string (.of (c :: chars)), []⟩ := by
      show Lexer.inString _ _ c = _
      rw [Lexer.inString, if_neg hquote, if_neg hslash, if_neg hcontrol]
      rfl
    exact tokensIn_cons rest hstep

theorem tokensIn_flatMap_escapeChar (text chars rest : List Char) :
    tokensIn (.string (.of chars)) (text.flatMap escapeChar ++ rest) =
      tokensIn (.string (.of (text.reverse ++ chars))) rest := by
  induction text generalizing chars with
  | nil => rfl
  | cons c text ih =>
    rw [List.flatMap_cons, List.append_assoc, tokensIn_escapeChar, ih, List.reverse_cons,
      List.append_assoc]
    rfl

/-- **Strings come back**, whatever characters they hold. -/
theorem tokens_stringText (s : String) (rest : List Char) :
    tokens (stringText s ++ rest) = .string (.ok s) :: tokens rest := by
  have hend : Lexer.step ⟨.string (.of s.toList.reverse), []⟩ '"' =
      ⟨.between, [.string (.ok s)]⟩ := by
    show Lexer.mk .between [Token.string (.ok (String.ofList s.toList.reverse.reverse))] = _
    rw [List.reverse_reverse, String.ofList_toList]
  rw [stringText, List.cons_append, List.cons_append, List.append_assoc, tokens_eq_tokensIn]
  rw [tokensIn_cons _ (show _ = Lexer.mk (.string (.of [])) [] from rfl)]
  rw [tokensIn_flatMap_escapeChar, List.append_nil, List.singleton_append, tokensIn_cons _ hend]
  rfl

/-! ## Section 3: Numbers -/

/-- The characters take a number from one phase and figures to others. -/
def Grows (phase : Phase) (f : Figures) (text : List Char) (phase' : Phase) (f' : Figures) : Prop :=
  ∀ rest, tokensIn (.number phase f) (text ++ rest) = tokensIn (.number phase' f') rest

namespace Grows

variable {phase phase' phase'' : Phase} {f f' f'' : Figures}

theorem nil (phase : Phase) (f : Figures) : Grows phase f [] phase f := by
  intro rest
  rfl

theorem cons {c : Char} {text : List Char} (hc : phase.step f c = .more phase' f')
    (h : Grows phase' f' text phase'' f'') : Grows phase f (c :: text) phase'' f'' := by
  intro rest
  have hstep : Lexer.step ⟨.number phase f, []⟩ c = ⟨.number phase' f', []⟩ := by
    show Lexer.inNumber _ phase f c = _
    rw [Lexer.inNumber, hc]
    rfl
  rw [List.cons_append, tokensIn_cons _ hstep]
  exact h rest

/-- Digits lead from a phase of some kind to one of the same kind, if one
    digit always does. -/
theorem exists_digits {ι : Type} (kind : ι → Phase)
    (hkind : ∀ i f c, c.isDigit = true → ∃ i' f', (kind i).step f c = .more (kind i') f')
    {digits : List Char} (hdigits : ∀ c ∈ digits, c.isDigit = true) (i : ι) (f : Figures) :
    ∃ i' f', Grows (kind i) f digits (kind i') f' := by
  induction digits generalizing i f with
  | nil => exact ⟨i, f, nil (kind i) f⟩
  | cons c digits ih =>
    obtain ⟨hc, hdigits⟩ := List.forall_mem_cons.mp hdigits
    obtain ⟨next, g, hstep⟩ := hkind i f c hc
    obtain ⟨i', f', hgrows⟩ := ih hdigits next g
    exact ⟨i', f', cons hstep hgrows⟩

end Grows

/-- Where a number begins: behind its minus sign, if it has one. -/
def numberStart : Bool → Mode
  | true => .number .sign (.start true)
  | false => .between

theorem tokens_sign (negative : Bool) (rest : List Char) :
    tokens ((if negative then ['-'] else []) ++ rest) = tokensIn (numberStart negative) rest := by
  cases negative with
  | true => exact tokensIn_cons rest rfl
  | false => rfl

theorem isDigit_of_mem_toDigits {n : Nat} {c : Char} (hc : c ∈ Nat.toDigits 10 n) :
    c.isDigit = true :=
  Nat.isDigit_of_mem_toDigits (by decide) (by decide) hc

/-- A number other than zero has a leading digit other than zero. -/
theorem exists_toDigits_eq_cons {n : Nat} (hn : 0 < n) :
    ∃ k digits, 0 < k ∧ k < 10 ∧ (∀ c ∈ digits, c.isDigit = true) ∧
      Nat.toDigits 10 n = k.digitChar :: digits := by
  induction n using Nat.base_induction 10 (by decide) with
  | single n hlt => exact ⟨n, [], hn, hlt, List.forall_mem_nil _, Nat.toDigits_of_lt_base hlt⟩
  | digit m d hd hm ih =>
    -- One more digit at the end leaves the leading one where it is.
    obtain ⟨k, digits, hpos, hlt, hdigits, heq⟩ := ih hm
    refine ⟨k, digits ++ Nat.toDigits 10 d, hpos, hlt, ?_, ?_⟩
    · intro c hc
      rcases List.mem_append.mp hc with hc | hc
      · exact hdigits c hc
      · exact isDigit_of_mem_toDigits hc
    · rw [← Nat.toDigits_append_toDigits (by decide) hm hd, heq]
      rfl

theorem step_leading_digit {k : Nat} (hpos : 0 < k) (hlt : k < 10) (negative : Bool) :
    Lexer.step ⟨numberStart negative, []⟩ k.digitChar =
      ⟨.number (.whole false) ⟨negative, k, 0, 0⟩, []⟩ := by
  cases negative <;> interval_cases k <;> rfl

theorem step_leading_zero (negative : Bool) :
    Lexer.step ⟨numberStart negative, []⟩ '0' = ⟨.number .zero (.start negative), []⟩ := by
  cases negative <;> rfl

/-- A phase behind the whole part of a number. -/
def Phase.EndsWhole (phase : Phase) : Prop := phase = .zero ∨ ∃ full, phase = .whole full

/-- A phase behind which an exponent may come. -/
def Phase.MayMark (phase : Phase) : Prop := phase.EndsWhole ∨ ∃ full, phase = .fraction full

/-- The whole part of a number: no leading zero but zero itself. -/
inductive IsWhole : List Char → Prop where
  /-- Zero. -/
  | zero : IsWhole ['0']
  /-- A number other than zero. -/
  | digits {c : Char} {digits : List Char} (hc : c.isDigit = true) (hzero : c ≠ '0')
      (hdigits : ∀ d ∈ digits, d.isDigit = true) : IsWhole (c :: digits)

/-- The places behind the point of a number, if there are any. -/
inductive IsFraction : List Char → Prop where
  /-- No point. -/
  | none : IsFraction []
  /-- A point with digits behind it. -/
  | digits {digits : List Char} (hne : digits ≠ []) (hdigits : ∀ d ∈ digits, d.isDigit = true) :
      IsFraction ('.' :: digits)

/-- The exponent of a number, if there is one. -/
inductive IsExponent : List Char → Prop where
  /-- No exponent. -/
  | none : IsExponent []
  /-- A mark, perhaps a sign, and digits. -/
  | digits {mark : Char} {sign digits : List Char} (hmark : mark = 'e' ∨ mark = 'E')
      (hsign : sign ∈ [[], ['+'], ['-']]) (hne : digits ≠ [])
      (hdigits : ∀ d ∈ digits, d.isDigit = true) : IsExponent (mark :: sign ++ digits)

/-- **The grammar of numbers.** -/
inductive IsNumber : List Char → Prop where
  /-- A number and its parts. -/
  | parts (negative : Bool) {whole fraction exponent : List Char} (hwhole : IsWhole whole)
      (hfraction : IsFraction fraction) (hexponent : IsExponent exponent) :
      IsNumber ((if negative then ['-'] else []) ++ whole ++ fraction ++ exponent)

theorem exists_digitChar {c : Char} (hc : c.isDigit = true) (hzero : c ≠ '0') :
    ∃ k, 0 < k ∧ k < 10 ∧ c = k.digitChar := by
  have hrange : '0'.toNat ≤ c.toNat ∧ c.toNat ≤ '9'.toNat := by
    simpa [Char.isDigit, UInt32.le_iff_toNat_le] using hc
  rw [← Char.ofNat_toNat c] at hzero ⊢
  generalize c.toNat = n at *
  obtain ⟨hle, hge⟩ : 48 ≤ n ∧ n ≤ 57 := hrange
  have hne : n ≠ 48 := by
    rintro rfl
    exact hzero rfl
  refine ⟨n - 48, by omega, by omega, ?_⟩
  interval_cases n <;> rfl

/-- A whole part leads behind it. -/
theorem IsWhole.exists_phase {whole : List Char} (h : IsWhole whole) (negative : Bool) :
    ∃ phase f, phase.EndsWhole ∧ ∀ rest, tokensIn (numberStart negative) (whole ++ rest) =
      tokensIn (.number phase f) rest := by
  cases h with
  | zero =>
    exact ⟨.zero, .start negative, .inl rfl,
      fun rest => tokensIn_cons rest (step_leading_zero negative)⟩
  | @digits c digits hc hzero hdigits =>
    obtain ⟨k, hpos, hlt, rfl⟩ := exists_digitChar hc hzero
    obtain ⟨full, f, hgrows⟩ := Grows.exists_digits Phase.whole
      (fun _ _ _ hc => ⟨_, _, if_pos hc⟩) hdigits false ⟨negative, k, 0, 0⟩
    refine ⟨.whole full, f, .inr ⟨full, rfl⟩, fun rest => ?_⟩
    rw [List.cons_append, tokensIn_cons _ (step_leading_digit hpos hlt negative)]
    exact hgrows rest

/-- The places behind the point, if there are any, lead to where a number may
    end or take an exponent. -/
theorem IsFraction.exists_phase {fraction : List Char} (h : IsFraction fraction) {whole : Phase}
    (hwhole : whole.EndsWhole) (f : Figures) :
    ∃ phase f', phase.MayMark ∧ phase.mayEnd = true ∧ Grows whole f fraction phase f' := by
  cases h with
  | none =>
    -- Without places there is no point, and the number stays where it is.
    refine ⟨whole, f, .inl hwhole, ?_, .nil whole f⟩
    rcases hwhole with rfl | ⟨full, rfl⟩ <;> rfl
  | @digits digits hne hdigits =>
    have hpoint : whole.step f '.' = .more .point f := by
      rcases hwhole with rfl | ⟨full, rfl⟩ <;> rfl
    obtain ⟨c, digits, rfl⟩ := List.exists_cons_of_ne_nil hne
    obtain ⟨hc, hdigits⟩ := List.forall_mem_cons.mp hdigits
    have hfirst : Phase.point.step f c =
        .more (.fraction (f.isFull false c)) (f.addFraction (f.isFull false c) c) := if_pos hc
    obtain ⟨full, f', hgrows⟩ := Grows.exists_digits Phase.fraction
      (fun _ _ _ hc => ⟨_, _, if_pos hc⟩) hdigits _ _
    exact ⟨.fraction full, f', .inr ⟨full, rfl⟩, rfl, .cons hpoint (.cons hfirst hgrows)⟩

/-- An exponent, if there is one, leads to where a number may end. -/
theorem IsExponent.exists_phase {exponent : List Char} (h : IsExponent exponent) {phase : Phase}
    (hphase : phase.MayMark) (hend : phase.mayEnd = true) (f : Figures) :
    ∃ phase' f', phase'.mayEnd = true ∧ Grows phase f exponent phase' f' := by
  cases h with
  | none => exact ⟨phase, f, hend, .nil phase f⟩
  | @digits mark sign digits hmark hsign hne hdigits =>
    have hmark : phase.step f mark = .more .mark f := by
      rcases hmark with rfl | rfl <;>
        rcases hphase with (rfl | ⟨full, rfl⟩) | ⟨full, rfl⟩ <;> rfl
    obtain ⟨c, digits, rfl⟩ := List.exists_cons_of_ne_nil hne
    obtain ⟨hc, hdigits⟩ := List.forall_mem_cons.mp hdigits
    -- With or without a sign, the first digit leads into the exponent.
    obtain ⟨negative, hfirst⟩ : ∃ negative, ∀ {text phase' f'},
        Grows (.exponent negative) (f.addExponent negative c) text phase' f' →
          Grows .mark f (sign ++ c :: text) phase' f' := by
      have hsigned : ∀ negative, (Phase.markSign negative).step f c =
          .more (.exponent negative) (f.addExponent negative c) := fun _ => if_pos hc
      simp only [List.mem_cons, List.not_mem_nil, or_false] at hsign
      rcases hsign with rfl | rfl | rfl
      · have hplain : Phase.mark.step f c = .more (.exponent false) (f.addExponent false c) := by
          have hplus : c ≠ '+' := by rintro rfl; cases hc
          have hminus : c ≠ '-' := by rintro rfl; cases hc
          rw [Phase.step, if_neg hplus, if_neg hminus, if_pos hc, growExponent]
        exact ⟨false, .cons hplain⟩
      · exact ⟨false, fun h => .cons rfl (.cons (hsigned false) h)⟩
      · exact ⟨true, fun h => .cons rfl (.cons (hsigned true) h)⟩
    obtain ⟨_, f', hgrows⟩ := Grows.exists_digits Phase.exponent
      (fun _ _ _ hc => ⟨_, _, if_pos hc⟩) hdigits negative (f.addExponent negative c)
    exact ⟨_, f', rfl, .cons hmark (hfirst hgrows)⟩

/-- A number leads to where it may end. -/
theorem IsNumber.exists_phase {text : List Char} (h : IsNumber text) :
    ∃ phase f, phase.mayEnd = true ∧
      ∀ rest, tokens (text ++ rest) = tokensIn (.number phase f) rest := by
  obtain ⟨negative, hwhole, hfraction, hexponent⟩ := h
  obtain ⟨whole, f, hwhole, htext⟩ := hwhole.exists_phase negative
  obtain ⟨place, g, hmark, hend, hplaces⟩ := hfraction.exists_phase hwhole f
  obtain ⟨phase, g', hend, hexponent⟩ := hexponent.exists_phase hmark hend g
  refine ⟨phase, g', hend, fun rest => ?_⟩
  simp only [List.append_assoc]
  rw [tokens_sign, htext, hplaces, hexponent]

theorem isWhole_toDigits (n : Nat) : IsWhole (Nat.toDigits 10 n) := by
  rcases Nat.eq_zero_or_pos n with rfl | hn
  · exact .zero
  · obtain ⟨k, digits, hpos, hlt, hdigits, heq⟩ := exists_toDigits_eq_cons hn
    rw [heq]
    have hlead : k.digitChar.isDigit = true ∧ k.digitChar ≠ '0' := by
      interval_cases k <;> decide
    exact .digits hlead.1 hlead.2 hdigits

/-- What is written for a numeral is a number. -/
theorem isNumber_text (n : Numeral) : IsNumber n.text := by
  refine .parts n.negative (isWhole_toDigits _) ?_ ?_
  · split_ifs with hscale
    · exact .none
    · refine .digits (List.append_ne_nil_of_right_ne_nil _ Nat.toDigits_ne_nil) fun c hc => ?_
      rcases List.mem_append.mp hc with hc | hc
      · rw [List.eq_of_mem_replicate hc]
        rfl
      · exact isDigit_of_mem_toDigits hc
  · cases n.exponent with
    | none => exact .none
    | some e =>
      have hsign : [if e < 0 then '-' else '+'] ∈ [[], ['+'], ['-']] := by
        split_ifs <;> simp
      exact .digits (.inl rfl) hsign Nat.toDigits_ne_nil fun c hc => isDigit_of_mem_toDigits hc

/-- A character behind a value, which can extend no number. -/
def IsDelimiter (c : Char) : Prop := IsBlank c ∨ c = ',' ∨ c = ']' ∨ c = '\x7d'

/-- What follows a value in a written text: nothing, or a delimiter. -/
def Delimited (rest : List Char) : Prop := ∀ c ∈ rest.head?, IsDelimiter c

theorem Phase.step_delimiter {phase : Phase} (hphase : phase.mayEnd = true) (f : Figures) {c : Char}
    (hc : IsDelimiter c) : phase.step f c = .over := by
  cases phase with
  | zero | whole | fraction | exponent =>
    rcases hc with (rfl | rfl | rfl | rfl) | rfl | rfl | rfl <;> rfl
  | sign | point | mark | markSign => cases hphase

/-- A number that may end does so where the text is delimited. -/
theorem tokensIn_number {phase : Phase} (hphase : phase.mayEnd = true) (f : Figures)
    {rest : List Char} (hrest : Delimited rest) :
    tokensIn (.number phase f) rest = numberToken phase f :: tokens rest := by
  cases rest with
  | nil =>
    show (if phase.mayEnd then _ else _ : List Token).reverse = _
    rw [if_pos hphase]
    rfl
  | cons c rest =>
    -- The delimiter completes the number, and then it is looked at again as a
    -- character between tokens.
    have hover := Phase.step_delimiter hphase f (hrest c rfl)
    have hstep : Lexer.step ⟨.number phase f, []⟩ c =
        (Lexer.begin ⟨.between, []⟩ c).above [numberToken phase f] := by
      show Lexer.inNumber _ phase f c = _
      rw [Lexer.inNumber, hover, Lexer.begin_above]
      rfl
    rw [tokensIn_cons rest hstep, List.reverse_append, List.append_assoc, tokens_eq_tokensIn,
      tokensIn_cons rest rfl]
    rfl

theorem le_ofDigitChars (digits : List Char) (m : Nat) : m ≤ Nat.ofDigitChars 10 digits m := by
  have hpos : 0 < 10 ^ digits.length := Nat.pow_pos (by decide)
  rw [Nat.ofDigitChars_eq_ofDigitChars_zero]
  exact Nat.le_add_right_of_le (Nat.le_mul_of_pos_left m hpos)

/-- Digits of a whole part are all kept as long as they fit. -/
theorem grows_whole (negative : Bool) {digits : List Char} {m : Nat}
    (hdigits : ∀ c ∈ digits, c.isDigit = true)
    (hfits : Nat.ofDigitChars 10 digits m < 0x10000000000000000) :
    Grows (.whole false) ⟨negative, m, 0, 0⟩ digits
      (.whole false) ⟨negative, Nat.ofDigitChars 10 digits m, 0, 0⟩ := by
  induction digits generalizing m with
  | nil => exact .nil _ _
  | cons c digits ih =>
    obtain ⟨hc, hdigits⟩ := List.forall_mem_cons.mp hdigits
    rw [Nat.ofDigitChars_cons] at hfits ⊢
    -- The digits so far name no more than all of them do, so none is dropped.
    have hle := le_ofDigitChars digits (10 * m + (c.toNat - '0'.toNat))
    have hroom : Figures.isFull ⟨negative, m, 0, 0⟩ false c = false := by
      show (false || decide (0x10000000000000000 ≤ 10 * m + (c.toNat - '0'.toNat))) = false
      rw [Bool.false_or, decide_eq_false (by omega)]
    refine .cons ?_ (ih hdigits hfits)
    show (if c.isDigit then growWhole false _ c else _) = _
    rw [if_pos hc, growWhole, hroom]
    rfl

/-- The figures of a whole number name it. -/
theorem whole?_figures {n : Int} (fits : -0x8000000000000000 ≤ n ∧ n < 0x10000000000000000) :
    Figures.whole? ⟨decide (n < 0), n.natAbs, 0, 0⟩ = some (.whole n fits) := by
  unfold Figures.whole?
  rw [if_neg (not_not.mpr rfl)]
  by_cases hn : n < 0
  · have hsign : -(n.natAbs : Int) = n := by omega
    have hroom : 0 < n.natAbs ∧ n.natAbs ≤ 0x8000000000000000 := by omega
    rw [if_pos (decide_eq_true hn), dif_pos hroom]
    simp only [hsign]
  · have hsign : (n.natAbs : Int) = n := by omega
    have hroom : n.natAbs < 0x10000000000000000 := by omega
    rw [if_neg (by simpa using hn), dif_pos hroom]
    simp only [hsign]

/-- The first digits of a whole number that fits are kept as they are. -/
theorem exists_phase_toDigits (negative : Bool) {m : Nat} (hm : m < 0x10000000000000000)
    {t : List Char} (ht : t <+: Nat.toDigits 10 m) (hne : t ≠ []) :
    ∃ phase k, (phase = .zero ∨ phase = .whole false) ∧ k ≤ m ∧ (0 < m → 0 < k) ∧
      (t = Nat.toDigits 10 m → k = m) ∧
      ∀ rest, tokensIn (numberStart negative) (t ++ rest) =
        tokensIn (.number phase ⟨negative, k, 0, 0⟩) rest := by
  rcases Nat.eq_zero_or_pos m with rfl | hpos
  · rw [Nat.toDigits_zero] at ht ⊢
    obtain rfl : t = ['0'] := by
      rcases List.prefix_cons_iff.mp ht with rfl | ⟨u, rfl, hu⟩
      · exact absurd rfl hne
      · rw [List.prefix_nil.mp hu]
    exact ⟨.zero, 0, .inl rfl, Nat.le_refl 0, fun h => h, fun _ => rfl,
      fun rest => tokensIn_cons rest (step_leading_zero negative)⟩
  · obtain ⟨k, digits, hk, hlt, hdigits, heq⟩ := exists_toDigits_eq_cons hpos
    have hvalue : Nat.ofDigitChars 10 digits k = m := by
      have hall := Nat.ofDigitChars_ten_toDigits (n := m)
      rwa [heq, Nat.ofDigitChars_cons_digitChar_of_lt_ten hlt, Nat.mul_zero, Nat.zero_add] at hall
    rw [heq] at ht ⊢
    rcases List.prefix_cons_iff.mp ht with rfl | ⟨u, rfl, v, hv⟩
    · exact absurd rfl hne
    · have hle : Nat.ofDigitChars 10 u k ≤ m := by
        rw [← hvalue, ← hv, Nat.ofDigitChars_append]
        exact le_ofDigitChars v _
      have hu : ∀ c ∈ u, c.isDigit = true := fun c hc =>
        hdigits c (hv ▸ List.mem_append_left v hc)
      have hgrows := grows_whole negative hu (Nat.lt_of_le_of_lt hle hm)
      refine ⟨.whole false, Nat.ofDigitChars 10 u k, .inr rfl, hle, fun _ => ?_, fun hfull => ?_,
        fun rest => ?_⟩
      · exact Nat.lt_of_lt_of_le hk (le_ofDigitChars u k)
      · obtain rfl := (List.cons.inj hfull).2
        exact hvalue
      · rw [List.cons_append, tokensIn_cons _ (step_leading_digit hk hlt negative)]
        exact hgrows rest

/-- What is read where a number is written. -/
def reread (n : Number) : Except Fault Number :=
  match tokens n.numeral.text with
  | [.number r] => r
  | _ => .error .hugeNumber

/-- A number is one token where the text is delimited. -/
theorem tokens_numeral (n : Number) {rest : List Char} (hrest : Delimited rest) :
    tokens (n.numeral.text ++ rest) = .number (reread n) :: tokens rest := by
  obtain ⟨phase, f, hend, htext⟩ := (isNumber_text n.numeral).exists_phase
  -- `reread` looks at the numeral alone; the phase it ends in is the same here.
  have hself := htext []
  rw [List.append_nil, tokensIn_number hend f (by simp [Delimited])] at hself
  have hreread : numberToken phase f = .number (reread n) := by
    rw [reread, hself]
    rfl
  rw [htext rest, tokensIn_number hend f hrest, hreread]

theorem text_whole {n : Int} (fits : -0x8000000000000000 ≤ n ∧ n < 0x10000000000000000) :
    (Number.whole n fits).numeral.text =
      (if decide (n < 0) then ['-'] else []) ++ Nat.toDigits 10 n.natAbs := by
  simp [Number.numeral, Numeral.text]

/-- **Whole numbers come back**, up to both ends of their range. -/
theorem reread_whole {n : Int} (fits : -0x8000000000000000 ≤ n ∧ n < 0x10000000000000000) :
    reread (.whole n fits) = .ok (.whole n fits) := by
  obtain ⟨phase, k, hphase, -, -, hfull, htokens⟩ :=
    exists_phase_toDigits (decide (n < 0)) (show n.natAbs < 0x10000000000000000 by omega)
      (List.prefix_refl _) Nat.toDigits_ne_nil
  obtain rfl := hfull rfl
  have hend : phase.mayEnd = true := by
    rcases hphase with rfl | rfl <;> rfl
  have hnumber : phase.number? ⟨decide (n < 0), n.natAbs, 0, 0⟩ = some (.whole n fits) := by
    rcases hphase with rfl | rfl <;> exact whole?_figures fits
  have hread := htokens []
  rw [List.append_nil, tokensIn_number hend _ (by simp [Delimited])] at hread
  rw [reread, text_whole, tokens_sign, hread, numberToken, hnumber]
  rfl

end BlockFlow.Json
