import BlockFlow.Proofs.Json.Lexing
import BlockFlow.Proofs.Json.Limit

/-! # Numbers that break off

    A number that is cut off behind any of its characters is still a number, or
    it is cut short. It is never beyond the doubles, although reading it rounds
    more than once.

    - The figures that the machine has collected are followed through the whole
      part (`exists_phase_toDigits`), the fraction (`Tracks`) and the exponent
      (`grows_exponent`). Wherever the text ends, they name a finite double
      (`Figures.Tame`).
    - Before the exponent nothing is scaled up. With a part of the exponent the
      number is smaller than with all of it, and that one is finite (see
      `Double.staysFinite_shortest`).

    `numberCut` puts both together for every number that is written. -/

namespace BlockFlow

/-- What may be left of a number: of a whole number, another one that is no
    larger than it or than zero. -/
def Number.Leaves : Number → Number → Prop
  | .whole n _, m => ∃ k fits, m = .whole k fits ∧ k ≤ max n 0
  | .real _ _, _ => True

/-! ## Section 1: Figures of finite doubles -/

theorem Double.isFinite_ofMagnitude (negative : Bool) {m : Nat} (h : m < infinity) :
    (ofMagnitude negative m).isFinite = true := by
  have hfits : m < signBit := Nat.lt_trans h (by decide)
  rw [isFinite, magnitude_ofMagnitude _ hfits]
  exact decide_eq_true h

/-- Figures that name a finite double. -/
def Figures.Tame (f : Figures) : Prop :=
  Double.scaled f.significand (f.shift + f.exponent) < Double.infinity

theorem Figures.Tame.exists_real {f : Figures} (h : f.Tame) : ∃ m, f.real? = some m := by
  have hfinite : f.toDouble.isFinite = true := Double.isFinite_ofMagnitude _ h
  exact ⟨_, dif_pos hfinite⟩

theorem Figures.Tame.exists_number {f : Figures} (h : f.Tame) (phase : Json.Phase) :
    ∃ m, phase.number? f = some m := by
  have hreal := h.exists_real
  have hwhole : ∃ m, f.whole? = some m := by
    unfold Figures.whole?
    split_ifs
    · exact hreal
    · exact ⟨_, rfl⟩
    · exact hreal
    · exact ⟨_, rfl⟩
    · exact hreal
  cases phase <;> assumption

/-- Figures that are not scaled up. -/
theorem Figures.tame_of_nonpos {f : Figures} (hsignificand : f.significand < 0x10000000000000000)
    (h : f.shift + f.exponent ≤ 0) : f.Tame := by
  refine Double.scaled_lt_infinity hsignificand fun hpos => ?_
  have hroom : 0x10000000000000000 ≤ Double.limit := by decide +kernel
  rw [show (f.shift + f.exponent).toNat = 0 by omega, show Nat.pow 10 0 = 1 from rfl, Nat.mul_one]
  omega

/-- A numeral that is read as finite, and also with any smaller exponent. -/
def Numeral.StaysFinite (n : Numeral) : Prop :=
  ∀ e, n.exponent = some e → 0 ≤ e → Double.StaysFinite ⟨n.mantissa, e - n.scale⟩

namespace Json

/-! ## Section 2: Parts of a text -/

/-- A part of a text in two pieces ends in the first piece, or goes on into the
    second. -/
theorem prefix_append_cases {a b t : List Char} (h : t <+: a ++ b) :
    t <+: a ∨ ∃ t', t = a ++ t' ∧ t' <+: b := by
  obtain ⟨u, hu⟩ := h
  rcases List.append_eq_append_iff.mp hu with ⟨c, ha, -⟩ | ⟨c, rfl, hb⟩
  · exact .inl ⟨c, ha.symm⟩
  · exact .inr ⟨c, rfl, ⟨u, hb.symm⟩⟩

/-- What becomes of a number that is cut off. -/
inductive NumberCut (n : Number) : List Token → Prop where
  /-- It has not begun. -/
  | nothing : NumberCut n []
  /-- It is a number. -/
  | number {m : Number} (h : n.Leaves m) : NumberCut n [.number (.ok m)]
  /-- It is cut short. -/
  | broken {passing : Problem} : NumberCut n [.broken .scalar (.cutShort .value) passing]

theorem numberCut_of_tame {n : Number} (hn : ∀ m, n.Leaves m) (phase : Phase) {f : Figures}
    (h : f.Tame) : NumberCut n (tokensIn (.number phase f) []) := by
  show NumberCut n ((if phase.mayEnd then _ else _ : List Token).reverse)
  split_ifs
  · obtain ⟨m, hm⟩ := h.exists_number phase
    rw [numberToken, hm]
    exact .number (hn m)
  · exact .broken

/-! ## Section 3: Whole numbers -/

/-- A number that is cut off behind its sign, or further on. -/
theorem numberCut_sign {n : Number} (negative : Bool) {text t : List Char}
    (h : ∀ t', t' <+: text → t' ≠ [] → NumberCut n (tokensIn (numberStart negative) t'))
    (ht : t <+: (if negative then ['-'] else []) ++ text) : NumberCut n (tokens t) := by
  cases negative with
  | false =>
    by_cases hnil : t = []
    · rw [hnil]
      exact .nothing
    · exact h t ht hnil
  | true =>
    rcases List.prefix_cons_iff.mp ht with rfl | ⟨t', rfl, ht'⟩
    · exact .nothing
    · rw [show '-' :: t' = (if true then ['-'] else []) ++ t' from rfl, tokens_sign]
      by_cases hnil : t' = []
      · rw [hnil]
        exact .broken
      · exact h t' ht' hnil

/-- A whole number that is cut off. -/
theorem numberCut_whole {n : Int} (fits : -0x8000000000000000 ≤ n ∧ n < 0x10000000000000000)
    {t : List Char} (ht : t <+: (Number.whole n fits).numeral.text) :
    NumberCut (.whole n fits) (tokens t) := by
  rw [text_whole] at ht
  refine numberCut_sign _ (fun t' ht' hne => ?_) ht
  obtain ⟨phase, k, hphase, hle, hpos, -, htokens⟩ :=
    exists_phase_toDigits (decide (n < 0)) (show n.natAbs < 0x10000000000000000 by omega) ht' hne
  have hread := htokens []
  rw [List.append_nil] at hread
  -- The digits so far name a number of the same sign.
  obtain ⟨m, hm, hleaves⟩ : ∃ m, phase.number? ⟨decide (n < 0), k, 0, 0⟩ = some m ∧
      (Number.whole n fits).Leaves m := by
    by_cases hn : n < 0
    · have hfits : -0x8000000000000000 ≤ -(k : Int) ∧ -(k : Int) < 0x10000000000000000 := by omega
      have hwhole := whole?_figures hfits
      rw [show decide (-(k : Int) < 0) = decide (n < 0) by simp [hn, hpos (by omega)],
        show (-(k : Int)).natAbs = k by omega] at hwhole
      refine ⟨.whole (-k) hfits, ?_, -k, hfits, rfl, by omega⟩
      rcases hphase with rfl | rfl <;> exact hwhole
    · have hfits : -0x8000000000000000 ≤ (k : Int) ∧ (k : Int) < 0x10000000000000000 := by omega
      have hwhole := whole?_figures hfits
      rw [show decide ((k : Int) < 0) = decide (n < 0) by simp [hn],
        show (k : Int).natAbs = k by omega] at hwhole
      refine ⟨.whole k hfits, ?_, k, hfits, rfl, by omega⟩
      rcases hphase with rfl | rfl <;> exact hwhole
  have hend : phase.mayEnd = true := by
    rcases hphase with rfl | rfl <;> rfl
  rw [hread, tokensIn_number hend _ (by simp [Delimited]), numberToken, hm]
  exact .number hleaves

/-! ## Section 4: Fractions and exponents -/

/-- Figures behind digits of a fraction: all digits, those of the whole part
    included, name `digits`, and `places` of them stand behind the point. -/
structure Tracks (f : Figures) (full : Bool) (digits places : Nat) : Prop where
  /-- There is no exponent yet. -/
  exponent_eq : f.exponent = 0
  /-- The significand fits sixty-four bits. -/
  significand_lt : f.significand < 0x10000000000000000
  /-- The digits that are dropped make the number smaller. -/
  dropped : ∃ q : Nat, f.shift = q - places ∧ q ≤ places ∧ f.significand * Nat.pow 10 q ≤ digits
  /-- As long as none is dropped, the significand is all digits. -/
  kept : full = false → f.shift = -places ∧ f.significand = digits
  /-- None is dropped as long as all fit sixty-four bits. -/
  fits : digits < 0x10000000000000000 → full = false

theorem Tracks.tame {f : Figures} {full : Bool} {digits places : Nat}
    (h : Tracks f full digits places) : f.Tame := by
  obtain ⟨q, hshift, hq, -⟩ := h.dropped
  have hexponent := h.exponent_eq
  exact Figures.tame_of_nonpos h.significand_lt (by omega)

theorem Tracks.addFraction {f : Figures} {full : Bool} {digits places : Nat}
    (h : Tracks f full digits places) (c : Char) :
    Tracks (f.addFraction (f.isFull full c) c) (f.isFull full c)
      (10 * digits + (c.toNat - '0'.toNat)) (places + 1) := by
  obtain ⟨q, hshift, hq, hdropped⟩ := h.dropped
  cases hfull : f.isFull full c with
  | true =>
    -- The digit is dropped.
    refine ⟨h.exponent_eq, h.significand_lt, ⟨q + 1, ?_, by omega, ?_⟩, (by simp), fun hfits => ?_⟩
    · show f.shift = _
      push_cast
      omega
    · show f.significand * Nat.pow 10 (q + 1) ≤ _
      rw [Nat.pow_eq, Nat.pow_succ, ← Nat.mul_assoc]
      rw [Nat.pow_eq] at hdropped
      omega
    · obtain rfl := h.fits (by omega)
      obtain ⟨-, hsignificand⟩ := h.kept rfl
      rw [Figures.isFull, Bool.false_or, decide_eq_true_iff, hsignificand,
        Figures.digitValue] at hfull
      omega
  | false =>
    rw [Figures.isFull, Bool.or_eq_false_iff, decide_eq_false_iff_not, Nat.not_le] at hfull
    obtain ⟨rfl, hroom⟩ := hfull
    obtain ⟨hall, hsignificand⟩ := h.kept rfl
    have hdigit : 10 * f.significand + Figures.digitValue c =
        10 * digits + (c.toNat - '0'.toNat) := by rw [hsignificand, Figures.digitValue]
    refine ⟨h.exponent_eq, hroom, ⟨0, ?_, by omega, ?_⟩, fun _ => ⟨?_, hdigit⟩,
      fun _ => rfl⟩
    · show f.shift - 1 = _
      push_cast
      omega
    · show (10 * f.significand + Figures.digitValue c) * 1 ≤ _
      omega
    · show f.shift - 1 = _
      push_cast
      omega

/-- The digits of a fraction are followed. -/
theorem Tracks.exists_fraction {f : Figures} {full : Bool} {digits places : Nat}
    (h : Tracks f full digits places) {fraction : List Char}
    (hfraction : ∀ c ∈ fraction, c.isDigit = true) :
    ∃ full' f', Tracks f' full' (Nat.ofDigitChars 10 fraction digits) (places + fraction.length) ∧
      Grows (.fraction full) f fraction (.fraction full') f' := by
  induction fraction generalizing f full digits places with
  | nil => exact ⟨full, f, h, .nil _ _⟩
  | cons c fraction ih =>
    obtain ⟨hc, hfraction⟩ := List.forall_mem_cons.mp hfraction
    obtain ⟨full', f', htracks, hgrows⟩ := ih (h.addFraction c) hfraction
    have hstep : (Phase.fraction full).step f c =
        .more (.fraction (f.isFull full c)) (f.addFraction (f.isFull full c) c) := if_pos hc
    refine ⟨full', f', ?_, .cons hstep hgrows⟩
    rw [Nat.ofDigitChars_cons, List.length_cons, Nat.add_comm fraction.length, ← Nat.add_assoc]
    exact htracks

theorem tokensIn_more {phase phase' : Phase} {f f' : Figures} {c : Char}
    (h : phase.step f c = .more phase' f') (rest : List Char) :
    tokensIn (.number phase f) (c :: rest) = tokensIn (.number phase' f') rest :=
  Grows.cons h (.nil phase' f') rest

/-- A digit behind the point is read as in the middle of a fraction. -/
theorem tokensIn_point (f : Figures) {c : Char} (hc : c.isDigit = true) (rest : List Char) :
    tokensIn (.number .point f) (c :: rest) =
      tokensIn (.number (.fraction false) f) (c :: rest) := by
  have hstep : Lexer.step ⟨.number .point f, []⟩ c =
      Lexer.step ⟨.number (.fraction false) f, []⟩ c := by
    show Lexer.inNumber _ _ f c = Lexer.inNumber _ _ f c
    simp only [Lexer.inNumber, Phase.step, if_pos hc, growFraction]
    rfl
  rw [tokensIn, List.foldl_cons, hstep]
  rfl

/-- A digit behind the sign of an exponent is read as in its middle. -/
theorem tokensIn_markSign (negative : Bool) (f : Figures) {c : Char} (hc : c.isDigit = true)
    (rest : List Char) : tokensIn (.number (.markSign negative) f) (c :: rest) =
      tokensIn (.number (.exponent negative) f) (c :: rest) := by
  have hstep : Lexer.step ⟨.number (.markSign negative) f, []⟩ c =
      Lexer.step ⟨.number (.exponent negative) f, []⟩ c := by
    show Lexer.inNumber _ _ f c = Lexer.inNumber _ _ f c
    simp only [Lexer.inNumber, Phase.step, if_pos hc, growExponent]
    rfl
  rw [tokensIn, List.foldl_cons, hstep]
  rfl

/-- The figures with this exponent in place of theirs. -/
def withExponent (f : Figures) (negative : Bool) (k : Nat) : Figures :=
  { f with exponent := if negative then -k else k }

theorem withExponent_zero {f : Figures} (h : f.exponent = 0) (negative : Bool) :
    withExponent f negative 0 = f := by
  have hzero : (if negative then -((0 : Nat) : Int) else (0 : Nat)) = f.exponent := by simp [h]
  rw [withExponent, hzero]

/-- The digits of an exponent are followed. -/
theorem grows_exponent (negative : Bool) (f : Figures) {digits : List Char}
    (hdigits : ∀ c ∈ digits, c.isDigit = true) (m : Nat) :
    Grows (.exponent negative) (withExponent f negative m) digits
      (.exponent negative) (withExponent f negative (Nat.ofDigitChars 10 digits m)) := by
  induction digits generalizing m with
  | nil => exact .nil _ _
  | cons c digits ih =>
    obtain ⟨hc, hdigits⟩ := List.forall_mem_cons.mp hdigits
    refine .cons ?_ (ih hdigits (10 * m + (c.toNat - '0'.toNat)))
    show (if c.isDigit then growExponent negative _ c else _) = _
    have hdigit : (withExponent f negative m).addExponent negative c =
        withExponent f negative (10 * m + (c.toNat - '0'.toNat)) := by
      simp only [Figures.addExponent, withExponent, Figures.digitValue]
      cases negative
      · simp
      · simp only [if_true, Figures.mk.injEq, true_and]
        push_cast
        omega
    rw [if_pos hc, growExponent, hdigit]

/-! ## Section 5: Numerals -/

/-- The digits of a fraction, with as many zeros before them as it takes. -/
def fractionDigits (n : Numeral) : List Char :=
  (Nat.toDigits 10 (n.mantissa % Nat.pow 10 n.scale)).leftpad n.scale '0'

theorem isDigit_fractionDigits (n : Numeral) : ∀ c ∈ fractionDigits n, c.isDigit = true := by
  intro c hc
  rcases List.mem_append.mp hc with hc | hc
  · rw [List.eq_of_mem_replicate hc]
    rfl
  · exact isDigit_of_mem_toDigits hc

theorem length_fractionDigits {n : Numeral} (hscale : 0 < n.scale) :
    (fractionDigits n).length = n.scale := by
  have hlt : n.mantissa % Nat.pow 10 n.scale < 10 ^ n.scale :=
    Nat.mod_lt _ (Nat.pow_pos (by decide))
  have hlength := (Nat.length_toDigits_le_iff (by decide) hscale).mpr hlt
  rw [fractionDigits, List.leftpad, List.length_append, List.length_replicate]
  omega

/-- Whole part and fraction name the mantissa. -/
theorem ofDigitChars_fractionDigits {n : Numeral} (hscale : 0 < n.scale) :
    Nat.ofDigitChars 10 (fractionDigits n) (n.mantissa / Nat.pow 10 n.scale) = n.mantissa := by
  have hlt : n.mantissa % Nat.pow 10 n.scale < 10 ^ n.scale :=
    Nat.mod_lt _ (Nat.pow_pos (by decide))
  have hlength := (Nat.length_toDigits_le_iff (by decide) hscale).mpr hlt
  rw [fractionDigits, List.leftpad, Nat.ofDigitChars_append, Nat.ofDigitChars_replicate_zero,
    Nat.ofDigitChars_eq_ofDigitChars_zero, Nat.ofDigitChars_ten_toDigits, ← Nat.mul_assoc,
    ← Nat.pow_add, Nat.add_sub_cancel' hlength]
  exact Nat.div_add_mod n.mantissa (10 ^ n.scale)

/-- A fraction leads behind its last digit, if there is one. -/
theorem exists_phase_fraction {n : Numeral} {whole : Phase} (hwhole : whole.EndsWhole) {f : Figures}
    (h : Tracks f false (n.mantissa / Nat.pow 10 n.scale) 0) :
    ∃ phase full g, phase.MayMark ∧ Tracks g full n.mantissa n.scale ∧
      Grows whole f (if n.scale = 0 then [] else '.' :: fractionDigits n) phase g := by
  split_ifs with hscale
  · rw [hscale, show Nat.pow 10 0 = 1 from rfl, Nat.div_one] at h
    exact ⟨whole, false, f, .inl hwhole, hscale ▸ h, .nil _ _⟩
  · have hpos : 0 < n.scale := Nat.pos_of_ne_zero hscale
    obtain ⟨full, g, htracks, hgrows⟩ := h.exists_fraction (isDigit_fractionDigits n)
    rw [ofDigitChars_fractionDigits hpos, length_fractionDigits hpos, Nat.zero_add] at htracks
    have hpoint : whole.step f '.' = .more .point f := by
      rcases hwhole with rfl | ⟨full, rfl⟩ <;> rfl
    refine ⟨.fraction full, full, g, .inr ⟨full, rfl⟩, htracks, .cons hpoint fun rest => ?_⟩
    rw [← hgrows rest]
    -- The point stands before at least one digit.
    cases hdigits : fractionDigits n with
    | nil =>
      have hlength := length_fractionDigits hpos
      rw [hdigits, List.length_nil] at hlength
      omega
    | cons c digits =>
      exact tokensIn_point f (isDigit_fractionDigits n c (hdigits ▸ List.mem_cons_self)) _

/-- With an exponent up to the one that is written, the figures name a finite
    double. -/
theorem Tracks.tame_of_withinLimit {f : Figures} {full : Bool} {digits places k : Nat} {e : Int}
    (h : Tracks f full digits places) (hlimit : Double.WithinLimit ⟨digits, e - places⟩)
    (hk : (k : Int) ≤ e) : Figures.Tame { f with exponent := k } := by
  obtain ⟨q, hshift, hq, hdropped⟩ := h.dropped
  refine Double.scaled_lt_infinity h.significand_lt fun hpos => ?_
  dsimp only at hpos ⊢
  rw [Double.WithinLimit] at hlimit
  dsimp only at hlimit
  have hsum : (f.shift + k).toNat + (-(e - places)).toNat ≤ q + (e - places).toNat := by omega
  generalize (f.shift + k).toNat = a at hsum ⊢
  generalize (-(e - places)).toNat = b at hsum hlimit
  generalize (e - places).toNat = c at hsum hlimit
  refine Nat.le_of_mul_le_mul_right ?_ (Nat.pow_pos (show 0 < 10 by decide) : 0 < 10 ^ b)
  calc f.significand * 10 ^ a * 10 ^ b = f.significand * 10 ^ (a + b) := by
        rw [Nat.mul_assoc, ← Nat.pow_add]
    _ ≤ f.significand * 10 ^ (q + c) :=
      Nat.mul_le_mul_left _ (Nat.pow_le_pow_right (by decide) hsum)
    _ = f.significand * 10 ^ q * 10 ^ c := by rw [Nat.pow_add, Nat.mul_assoc]
    _ ≤ digits * 10 ^ c := Nat.mul_le_mul_right _ hdropped
    _ ≤ Double.limit * 10 ^ b := hlimit

theorem Tracks.tame_of_staysFinite {f : Figures} {full : Bool} {digits places k : Nat} {e : Int}
    (h : Tracks f full digits places) (hfinite : Double.StaysFinite ⟨digits, e - places⟩)
    (hk : (k : Int) ≤ e) : Figures.Tame { f with exponent := k } := by
  rcases hfinite with hlimit | ⟨hfits, hscaled, hbelow⟩
  · exact h.tame_of_withinLimit hlimit hk
  · rcases Int.lt_or_eq_of_le hk with hlt | rfl
    · have hexponent : e - places - 1 = e - 1 - places := by omega
      rw [hexponent] at hbelow
      exact h.tame_of_withinLimit hbelow (by omega)
    · obtain ⟨hshift, hsignificand⟩ := h.kept (h.fits hfits)
      have hexponent : f.shift + k = k - places := by omega
      rwa [Figures.Tame, hsignificand, hexponent]

/-- The text of a numeral in its four parts. -/
theorem text_eq_append (numeral : Numeral) :
    numeral.text = (if numeral.negative then ['-'] else []) ++
      (Nat.toDigits 10 (numeral.mantissa / Nat.pow 10 numeral.scale) ++
        ((if numeral.scale = 0 then [] else '.' :: fractionDigits numeral) ++
          numeral.exponent.elim [] Numeral.exponentText)) := by
  rw [Numeral.text]
  cases numeral.exponent <;> simp only [List.append_assoc] <;> rfl

section Numeral

variable {n : Number} (hn : ∀ m, n.Leaves m)

include hn

/-- An exponent that is cut off, where all exponents up to it are fine. -/
theorem numberCut_exponent {phase : Phase} (hphase : phase.MayMark) {f : Figures} (htame : f.Tame)
    (hzero : f.exponent = 0) {e : Int}
    (hexponent : ∀ k : Nat, k ≤ e.natAbs → (withExponent f (decide (e < 0)) k).Tame)
    {t : List Char} (ht : t <+: Numeral.exponentText e) :
    NumberCut n (tokensIn (.number phase f) t) := by
  have hmark : phase.step f 'e' = .more .mark f := by
    rcases hphase with (rfl | ⟨full, rfl⟩) | ⟨full, rfl⟩ <;> rfl
  have hsign : Phase.mark.step f (if e < 0 then '-' else '+') =
      .more (.markSign (decide (e < 0))) f := by
    by_cases he : e < 0 <;> simp [he, Phase.step]
  rcases List.prefix_cons_iff.mp ht with rfl | ⟨u, rfl, hu⟩
  · exact numberCut_of_tame hn phase htame
  rw [tokensIn_more hmark]
  rcases List.prefix_cons_iff.mp hu with rfl | ⟨v, rfl, hv⟩
  · exact numberCut_of_tame hn .mark htame
  rw [tokensIn_more hsign]
  cases v with
  | nil => exact numberCut_of_tame hn _ htame
  | cons c digits =>
    obtain ⟨rest, hrest⟩ := hv
    have hdigits : ∀ d ∈ c :: digits, d.isDigit = true := fun d hd =>
      isDigit_of_mem_toDigits (hrest ▸ List.mem_append_left rest hd)
    have hle : Nat.ofDigitChars 10 (c :: digits) 0 ≤ e.natAbs := by
      have hall := Nat.ofDigitChars_ten_toDigits (n := e.natAbs)
      rw [← hrest, Nat.ofDigitChars_append] at hall
      rw [← hall]
      exact le_ofDigitChars rest _
    have hgrows := grows_exponent (decide (e < 0)) f hdigits 0 []
    rw [withExponent_zero hzero, List.append_nil] at hgrows
    rw [tokensIn_markSign _ _ (hdigits c List.mem_cons_self), hgrows]
    exact numberCut_of_tame hn _ (hexponent _ hle)

/-- A fraction that is cut off. -/
theorem numberCut_fraction {phase : Phase} (hphase : phase.EndsWhole) {f : Figures}
    {digits : Nat} (h : Tracks f false digits 0) {fraction : List Char}
    (hfraction : ∀ c ∈ fraction, c.isDigit = true) {t : List Char} (ht : t <+: '.' :: fraction) :
    NumberCut n (tokensIn (.number phase f) t) := by
  have hpoint : phase.step f '.' = .more .point f := by
    rcases hphase with rfl | ⟨full, rfl⟩ <;> rfl
  rcases List.prefix_cons_iff.mp ht with rfl | ⟨u, rfl, hu⟩
  · exact numberCut_of_tame hn phase h.tame
  rw [tokensIn_more hpoint]
  cases u with
  | nil => exact numberCut_of_tame hn .point h.tame
  | cons c u =>
    have hdigits : ∀ d ∈ c :: u, d.isDigit = true := fun d hd => hfraction d (hu.subset hd)
    obtain ⟨full, f', htracks, hgrows⟩ := h.exists_fraction hdigits
    have hread := hgrows []
    rw [List.append_nil] at hread
    rw [tokensIn_point f (hdigits c List.mem_cons_self), hread]
    exact numberCut_of_tame hn _ htracks.tame

/-- An exponent that is cut off, if there is one, behind all digits. -/
theorem numberCut_behindDigits {numeral : Numeral} (hfinite : numeral.StaysFinite) {phase : Phase}
    (hphase : phase.MayMark) {f : Figures} {full : Bool}
    (h : Tracks f full numeral.mantissa numeral.scale) {t : List Char}
    (ht : t <+: numeral.exponent.elim [] Numeral.exponentText) :
    NumberCut n (tokensIn (.number phase f) t) := by
  cases hexponent : numeral.exponent with
  | none =>
    rw [hexponent] at ht
    rw [List.prefix_nil.mp ht]
    exact numberCut_of_tame hn phase h.tame
  | some e =>
    rw [hexponent] at ht
    refine numberCut_exponent hn hphase h.tame h.exponent_eq (fun k hk => ?_) ht
    by_cases he : e < 0
    · obtain ⟨q, hshift, hq, -⟩ := h.dropped
      refine Figures.tame_of_nonpos h.significand_lt ?_
      simp only [withExponent, he, decide_true, if_true]
      omega
    · simp only [withExponent, he, decide_false]
      exact h.tame_of_staysFinite (hfinite e hexponent (by omega)) (by omega)

/-- A fraction or an exponent that is cut off, behind the whole part. -/
theorem numberCut_behindWhole {numeral : Numeral} (hfinite : numeral.StaysFinite) {whole : Phase}
    (hphase : whole.EndsWhole) {f : Figures}
    (h : Tracks f false (numeral.mantissa / Nat.pow 10 numeral.scale) 0) {t : List Char}
    (ht : t <+: (if numeral.scale = 0 then [] else '.' :: fractionDigits numeral) ++
      numeral.exponent.elim [] Numeral.exponentText) :
    NumberCut n (tokensIn (.number whole f) t) := by
  rcases prefix_append_cases ht with ht | ⟨u, rfl, hu⟩
  · split_ifs at ht with hscale
    · rw [List.prefix_nil.mp ht]
      exact numberCut_of_tame hn whole h.tame
    · exact numberCut_fraction hn hphase h (isDigit_fractionDigits numeral) ht
  · obtain ⟨phase, full, g, hmark, htracks, hgrows⟩ := exists_phase_fraction hphase h
    rw [hgrows]
    exact numberCut_behindDigits hn hfinite hmark htracks hu

/-- A numeral that is cut off. Its whole part fits sixty-four bits, and with an
    exponent it stays finite. -/
theorem numberCut_numeral {numeral : Numeral}
    (hwhole : numeral.mantissa / Nat.pow 10 numeral.scale < 0x10000000000000000)
    (hfinite : numeral.StaysFinite) {t : List Char} (ht : t <+: numeral.text) :
    NumberCut n (tokens t) := by
  rw [text_eq_append] at ht
  refine numberCut_sign _ (fun u hu hne => ?_) ht
  rcases prefix_append_cases hu with hu | ⟨v, rfl, hv⟩
  · obtain ⟨phase, k, -, hle, -, -, htokens⟩ := exists_phase_toDigits numeral.negative hwhole hu hne
    have hread := htokens []
    rw [List.append_nil] at hread
    rw [hread]
    exact numberCut_of_tame hn phase
      (Figures.tame_of_nonpos (Nat.lt_of_le_of_lt hle hwhole) (Int.le_refl 0))
  · obtain ⟨whole, k, hends, -, -, hfull, htokens⟩ :=
      exists_phase_toDigits numeral.negative hwhole (List.prefix_refl _) Nat.toDigits_ne_nil
    obtain rfl := hfull rfl
    have hends : whole.EndsWhole := hends.imp_right fun h => ⟨false, h⟩
    rw [htokens]
    refine numberCut_behindWhole hn hfinite hends ?_ hv
    exact ⟨rfl, hwhole, ⟨0, rfl, Nat.le_refl 0, Nat.le_of_eq (Nat.mul_one _)⟩, fun _ => ⟨rfl, rfl⟩,
      fun _ => rfl⟩

end Numeral

end Json

/-! ## Section 6: Doubles -/

/-- The whole part of digits in their places. -/
theorem Decimal.positional_whole_lt (d : Decimal) (negative : Bool) (hlead : d.lead ≤ 15) :
    (d.positional negative 1).mantissa / Nat.pow 10 (d.positional negative 1).scale <
      0x10000000000000000 := by
  rw [Decimal.lead] at hlead
  have hdigits := d.digits_lt
  show d.digits * 10 ^ (d.exponent + max 1 (-d.exponent).toNat).toNat /
    10 ^ (max 1 (-d.exponent).toNat) < _
  have hbound : d.width + (d.exponent + max 1 (-d.exponent).toNat).toNat ≤
      16 + max 1 (-d.exponent).toNat := by omega
  generalize max 1 (-d.exponent).toNat = scale at hbound ⊢
  generalize (d.exponent + scale).toNat = shift at hbound ⊢
  refine Nat.lt_of_lt_of_le ((Nat.div_lt_iff_lt_mul (Nat.pow_pos (by decide))).mpr ?_)
    (show 10 ^ 16 ≤ 0x10000000000000000 by decide)
  calc d.digits * 10 ^ shift < 10 ^ d.width * 10 ^ shift :=
        Nat.mul_lt_mul_of_pos_right hdigits (Nat.pow_pos (by decide))
    _ = 10 ^ (d.width + shift) := (Nat.pow_add _ _ _).symm
    _ ≤ 10 ^ (16 + scale) := Nat.pow_le_pow_right (by decide) hbound
    _ = 10 ^ 16 * 10 ^ scale := Nat.pow_add _ _ _

/-- One digit stands before the point. -/
theorem Decimal.scientific_whole_lt (d : Decimal) (negative : Bool) :
    (d.scientific negative).mantissa / Nat.pow 10 (d.scientific negative).scale <
      0x10000000000000000 := by
  have hdigits := d.digits_lt
  have hpos := d.width_pos
  show d.digits / 10 ^ (d.width - 1) < _
  refine Nat.lt_of_lt_of_le ((Nat.div_lt_iff_lt_mul (Nat.pow_pos (by decide))).mpr ?_)
    (show 10 ≤ 0x10000000000000000 by decide)
  rwa [← Nat.pow_succ', Nat.succ_eq_add_one, Nat.sub_add_cancel hpos]

namespace Json

/-- The text of a finite double that is cut off. -/
theorem numberCut_real {x : Double} (finite : x.isFinite = true) {t : List Char}
    (ht : t <+: (Number.realNumeral x).text) : NumberCut (.real x finite) (tokens t) := by
  have hn : ∀ m, (Number.real x finite).Leaves m := fun _ => trivial
  have hfinite := Double.staysFinite_shortest (of_decide_eq_true finite)
  rw [Number.realNumeral] at ht
  generalize Double.shortest .toEven x.magnitude = d at hfinite ht
  split_ifs at ht with hlead
  · refine numberCut_numeral hn (d.positional_whole_lt _ hlead.2) (fun e he => ?_) ht
    cases he
  · refine numberCut_numeral hn (d.scientific_whole_lt _) (fun e he _ => ?_) ht
    obtain rfl := Option.some.inj he
    have hpos := d.width_pos
    have hexponent : d.lead - (d.width - 1 : Nat) = d.exponent := by
      rw [Decimal.lead]
      omega
    show Double.StaysFinite ⟨d.digits, d.lead - (d.width - 1 : Nat)⟩
    rwa [hexponent]

/-- **A number that is cut off** behind any of its characters. -/
theorem numberCut (n : Number) {t : List Char} (ht : t <+: n.numeral.text) :
    NumberCut n (tokens t) := by
  cases n with
  | whole n fits => exact numberCut_whole fits ht
  | real x finite => exact numberCut_real finite ht

/-- A number is read as one that it leaves. -/
theorem exists_reread (n : Number) : ∃ m, reread n = .ok m ∧ n.Leaves m := by
  have hcut := numberCut n (List.prefix_refl _)
  have htokens := tokens_numeral n (show Delimited [] by simp [Delimited])
  rw [List.append_nil] at htokens
  rw [htokens] at hcut
  generalize reread n = result at hcut ⊢
  cases hcut with
  | number h => exact ⟨_, rfl, h⟩

end Json

end BlockFlow
