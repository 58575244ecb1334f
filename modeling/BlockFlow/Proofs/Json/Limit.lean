import BlockFlow.Numeral
import BlockFlow.Proofs.Flow.Canonical
import Mathlib.Tactic.Ring
import Mathlib.Tactic.SplitIfs

/-! # Doubles far enough from infinity

    A decimal is read in several steps, and each step rounds. So the decimal of
    a finite double could be read as infinite.

    - Rounding a ratio preserves order where it meets a magnitude exactly
      (`le_nearest`, `nearest_le_of_le`), and adds at most half of the last bit
      (`unitsOf_nearest_le`).
    - There is a limit up to which no way of rounding leads to infinity
      (`scaled_lt_infinity`).
    - The digits that are written for a magnitude name a number up to the limit,
      unless the magnitude is one of the last four (`withinLimit_shortest`).
    - So the digits of every finite magnitude are read as finite, and also with
      any smaller exponent (`staysFinite_shortest`). -/

namespace BlockFlow

theorem Decimal.width_pos (d : Decimal) : 0 < d.width :=
  List.length_pos_of_ne_nil Nat.toDigits_ne_nil

theorem Decimal.digits_lt (d : Decimal) : d.digits < 10 ^ d.width :=
  (Nat.length_toDigits_le_iff (by decide) d.width_pos).mp (Nat.le_refl _)

namespace Double

/-! ## Section 1: Rounding a ratio -/

theorem le_roundDiv (num den : Nat) : num / den ≤ roundDiv num den := by
  rw [roundDiv]
  split
  · exact Nat.le_refl _
  · split <;> omega

/-- A rounded quotient is at most a half too large. -/
theorem mul_roundDiv_le (num den : Nat) : 2 * (den * roundDiv num den) ≤ 2 * num + den := by
  have hnum := Nat.div_add_mod num den
  rw [roundDiv]
  split
  · omega
  · split
    · rw [Nat.mul_add]
      omega
    · have hone : num / den + num / den % 2 ≤ num / den + 1 := by omega
      have hle := Nat.mul_le_mul_left den hone
      rw [Nat.mul_add den _ 1] at hle
      omega

theorem roundDiv_le_of_le_mul {num den k : Nat} (hden : 0 < den) (h : num ≤ den * k) :
    roundDiv num den ≤ k := by
  have hround := mul_roundDiv_le num den
  by_contra hlt
  have hle : den * (k + 1) ≤ den * roundDiv num den := Nat.mul_le_mul_left den (by omega)
  rw [Nat.mul_add] at hle
  omega

theorem hiddenBit_eq : hiddenBit = 2 ^ 52 := by decide

/-- The magnitude with this exponent field and these significant bits is no
    larger than that of a ratio above it. -/
theorem le_nearest {num den k s : Nat} (hden : 0 < den) (hk : hiddenBit ≤ k)
    (hk' : k ≤ 2 * hiddenBit) (hs : s * hiddenBit + k ≤ infinity)
    (h : den * (k * Nat.pow 2 s) ≤ num * Nat.pow 2 1074) :
    s * hiddenBit + k ≤ nearest num den := by
  rw [nearest]
  generalize num * Nat.pow 2 1074 = scaled at h ⊢
  have hcount : k * 2 ^ s ≤ scaled / den :=
    (Nat.le_div_iff_mul_le hden).mpr (by rwa [Nat.mul_comm])
  have hpow : 2 ^ (52 + s) ≤ scaled / den := by
    rw [Nat.pow_add, ← hiddenBit_eq]
    exact Nat.le_trans (Nat.mul_le_mul_right _ hk) hcount
  have hpos := Nat.two_pow_pos (52 + s)
  have hlog : 52 + s ≤ (scaled / den).log2 := (Nat.le_log2 (by omega)).mpr hpow
  have hself : 2 ^ (scaled / den).log2 ≤ scaled / den := Nat.log2_self_le (by omega)
  obtain ⟨shift, hshift⟩ : ∃ shift, (scaled / den).log2 = 52 + (s + shift) :=
    ⟨(scaled / den).log2 - (52 + s), by omega⟩
  have hround := le_roundDiv scaled (den * Nat.pow 2 (s + shift))
  rw [← Nat.div_div_eq_div_mul] at hround
  have hsub : (scaled / den).log2 - 52 = s + shift := by omega
  refine Nat.le_min.mpr ⟨hs, ?_⟩
  rw [hsub]
  rcases Nat.eq_zero_or_pos shift with rfl | hpos
  · have hkept : k ≤ scaled / den / Nat.pow 2 (s + 0) :=
      (Nat.le_div_iff_mul_le (Nat.two_pow_pos _)).mpr hcount
    rw [Nat.add_zero] at hround hkept ⊢
    omega
  · -- A larger exponent field outweighs the significant bits.
    have hkept : hiddenBit ≤ scaled / den / Nat.pow 2 (s + shift) := by
      rw [hshift, Nat.pow_add, ← hiddenBit_eq] at hself
      exact (Nat.le_div_iff_mul_le (Nat.two_pow_pos _)).mpr hself
    have hfield : (s + 1) * hiddenBit ≤ (s + shift) * hiddenBit :=
      Nat.mul_le_mul_right _ (by omega)
    rw [Nat.add_mul] at hfield
    omega

/-- The magnitude of a ratio is no larger than one with this exponent field
    and these significant bits above it. -/
theorem nearest_le_of_le {num den k s : Nat} (hden : 0 < den) (hk : hiddenBit ≤ k)
    (hk' : k < 2 * hiddenBit) (h : num * Nat.pow 2 1074 ≤ den * (k * Nat.pow 2 s)) :
    nearest num den ≤ s * hiddenBit + k := by
  rw [nearest]
  generalize num * Nat.pow 2 1074 = scaled at h ⊢
  have hcount : scaled / den ≤ k * 2 ^ s := Nat.div_le_of_le_mul h
  have hlt : scaled / den < 2 ^ (53 + s) := by
    refine Nat.lt_of_le_of_lt hcount ?_
    rw [Nat.pow_add, show 2 ^ 53 = 2 * hiddenBit by decide]
    exact Nat.mul_lt_mul_of_pos_right hk' (Nat.two_pow_pos s)
  have hlog : (scaled / den).log2 < 53 + s := by
    rcases Nat.eq_zero_or_pos (scaled / den) with hzero | hpos
    · rw [hzero, Nat.log2_zero]
      omega
    · exact (Nat.log2_lt (by omega)).mpr hlt
  refine Nat.le_trans (Nat.min_le_right _ _) ?_
  rcases Nat.lt_or_ge ((scaled / den).log2 - 52) s with hshift | hshift
  · -- A smaller exponent field leaves room for all significant bits.
    have hkept := div_two_pow_shift_lt (scaled / den)
    rw [Nat.div_div_eq_div_mul] at hkept
    have hround := roundDiv_le scaled (den * Nat.pow 2 ((scaled / den).log2 - 52))
    have hfield : ((scaled / den).log2 - 52 + 1) * hiddenBit ≤ s * hiddenBit :=
      Nat.mul_le_mul_right _ hshift
    rw [Nat.add_mul] at hfield
    omega
  · have heq : (scaled / den).log2 - 52 = s := by omega
    rw [heq]
    refine Nat.add_le_add_left (roundDiv_le_of_le_mul ?_ ?_) _
    · exact Nat.mul_pos hden (Nat.two_pow_pos s)
    · rwa [Nat.mul_assoc, Nat.mul_comm (Nat.pow 2 s)]

/-! ## Section 2: Units -/

/-- The units of a magnitude with this exponent field and these significant
    bits, of which rounding may have made one too many. -/
theorem unitsOf_add {k s : Nat} (hk : hiddenBit ≤ k) (hk' : k ≤ 2 * hiddenBit) :
    unitsOf (s * hiddenBit + k) = k * Nat.pow 2 s := by
  have hpos : 0 < hiddenBit := by decide
  rw [unitsOf]
  rcases Nat.lt_or_ge k (2 * hiddenBit) with hlt | hge
  · obtain ⟨r, rfl⟩ := Nat.exists_eq_add_of_le hk
    have hr : r < hiddenBit := by omega
    have hsum : s * hiddenBit + (hiddenBit + r) = hiddenBit * (s + 1) + r := by ring
    rw [hsum, Nat.mul_add_div hpos, Nat.mul_add_mod, Nat.div_eq_of_lt hr, Nat.mod_eq_of_lt hr,
      if_neg (by omega), Nat.add_zero, Nat.add_sub_cancel, Nat.add_comm r]
  · obtain rfl : k = 2 * hiddenBit := by omega
    have hsum : s * hiddenBit + 2 * hiddenBit = hiddenBit * (s + 2) := by ring
    rw [hsum, Nat.mul_div_cancel_left _ hpos, Nat.mul_mod_right, if_neg (by omega), Nat.zero_add]
    show hiddenBit * 2 ^ (s + 1) = 2 * hiddenBit * 2 ^ s
    ring

/-- A magnitude that is no larger has no more units. -/
theorem unitsOf_le_of_le {m k s : Nat} (hk : hiddenBit ≤ k) (hk' : k < 2 * hiddenBit)
    (h : m ≤ s * hiddenBit + k) : unitsOf m ≤ k * Nat.pow 2 s := by
  have hpos : 0 < hiddenBit := by decide
  have hmod := Nat.mod_lt m hpos
  have hsum := Nat.div_add_mod m hiddenBit
  rw [unitsOf]
  split_ifs with hfield
  · exact Nat.le_trans (by omega) (Nat.le_mul_of_pos_right k (Nat.two_pow_pos s))
  · obtain ⟨j, hj⟩ := Nat.exists_eq_succ_of_ne_zero hfield
    rw [hj] at hsum ⊢
    rw [Nat.mul_succ] at hsum
    rw [Nat.succ_sub_one]
    have hle : j ≤ s := by
      by_contra hlt
      have hover : hiddenBit * (s + 1) ≤ hiddenBit * j := Nat.mul_le_mul_left _ (by omega)
      rw [Nat.mul_succ, Nat.mul_comm] at hover
      omega
    rcases Nat.lt_or_eq_of_le hle with hlt | rfl
    · -- One exponent field less is worth all significant bits.
      obtain ⟨t, rfl⟩ := Nat.exists_eq_add_of_lt hlt
      calc (m % hiddenBit + hiddenBit) * 2 ^ j
          ≤ (2 * hiddenBit) * 2 ^ (j + t) :=
            Nat.mul_le_mul (by omega) (Nat.pow_le_pow_right (by decide) (by omega))
        _ = hiddenBit * 2 ^ (j + t + 1) := by ring
        _ ≤ k * 2 ^ (j + t + 1) := Nat.mul_le_mul_right _ hk
    · rw [Nat.mul_comm] at h
      exact Nat.mul_le_mul_right _ (by omega)

-- Large literal exponents are generalized before anything else, so that nothing
-- tries to compute the powers.
theorem pow_two_of_eq_add {a b c : Nat} (h : c = a + b) :
    Nat.pow 2 c = Nat.pow 2 a * Nat.pow 2 b :=
  h ▸ Nat.pow_add 2 a b

theorem pow_two_pos (a : Nat) : 0 < Nat.pow 2 a := Nat.two_pow_pos a

theorem le_log2_of_pow_two_le {a count : Nat} (h : Nat.pow 2 a ≤ count) : a ≤ count.log2 :=
  (Nat.le_log2 (Nat.ne_of_gt (Nat.lt_of_lt_of_le (pow_two_pos a) h))).mpr h

/-- The units of a count that is not small: fifty-three bits, and the shift
    that they take. -/
theorem exists_unitsOf_shifted {count a : Nat} (ha : 52 ≤ a) (hcount : Nat.pow 2 a ≤ count)
    {magnitude : Nat} (hmagnitude : magnitude = min infinity
      ((count.log2 - 52) * hiddenBit + roundDiv count (Nat.pow 2 (count.log2 - 52))))
    (hfinite : magnitude < infinity) :
    ∃ unit, hiddenBit * unit ≤ count ∧ Nat.pow 2 a ≤ hiddenBit * unit ∧
      hiddenBit ≤ roundDiv count unit ∧ unitsOf magnitude = roundDiv count unit * unit := by
  have hlog := le_log2_of_pow_two_le hcount
  have hpos := Nat.lt_of_lt_of_le (pow_two_pos a) hcount
  have hself : Nat.pow 2 count.log2 ≤ count := Nat.log2_self_le (by omega)
  have hunit : Nat.pow 2 a ≤ Nat.pow 2 count.log2 := Nat.pow_le_pow_right (by decide) hlog
  have hkept := div_two_pow_shift_lt count
  obtain ⟨shift, hshift⟩ := Nat.exists_eq_add_of_le (Nat.le_trans ha hlog)
  rw [hshift, Nat.add_sub_cancel_left] at hkept hmagnitude
  rw [hshift, pow_two_of_eq_add rfl, show Nat.pow 2 52 = hiddenBit by decide] at hself hunit
  have hupper := roundDiv_le count (Nat.pow 2 shift)
  have hlower := Nat.le_trans ((Nat.le_div_iff_mul_le (pow_two_pos shift)).mpr hself)
    (le_roundDiv count (Nat.pow 2 shift))
  have hclamp : magnitude = shift * hiddenBit + roundDiv count (Nat.pow 2 shift) := by omega
  refine ⟨_, hself, hunit, hlower, ?_⟩
  rw [hclamp, unitsOf_add hlower (by omega)]

theorem exists_unitsOf_nearest {n : Nat} (hn : 0 < n) (hfinite : nearest n 1 < infinity) :
    ∃ unit, hiddenBit * unit ≤ n * Nat.pow 2 1074 ∧
      Nat.pow 2 1074 ≤ hiddenBit * unit ∧
        hiddenBit ≤ roundDiv (n * Nat.pow 2 1074) unit ∧
          unitsOf (nearest n 1) = roundDiv (n * Nat.pow 2 1074) unit * unit := by
  have hnearest : nearest n 1 = min infinity
      (((n * Nat.pow 2 1074).log2 - 52) * hiddenBit + roundDiv (n * Nat.pow 2 1074)
        (Nat.pow 2 ((n * Nat.pow 2 1074).log2 - 52))) := by
    rw [nearest, Nat.one_mul, Nat.div_one]
  generalize ha : 1074 = a at hnearest ⊢
  exact exists_unitsOf_shifted (by omega) (Nat.le_mul_of_pos_left _ hn) hnearest hfinite

/-- A whole number other than zero is rounded to one or more. -/
theorem le_unitsOf_nearest {n : Nat} (hn : 0 < n) (hfinite : nearest n 1 < infinity) :
    Nat.pow 2 1074 ≤ unitsOf (nearest n 1) := by
  obtain ⟨unit, -, hunit, hlower, hunits⟩ := exists_unitsOf_nearest hn hfinite
  rw [hunits]
  exact Nat.le_trans hunit (Nat.mul_le_mul_right _ hlower)

/-- Rounding a whole number adds at most half of its last bit. -/
theorem unitsOf_nearest_le {n : Nat} (hn : 0 < n) (hfinite : nearest n 1 < infinity) :
    2 * hiddenBit * unitsOf (nearest n 1) ≤ (2 * hiddenBit + 1) * (n * Nat.pow 2 1074) := by
  obtain ⟨unit, hself, -, -, hunits⟩ := exists_unitsOf_nearest hn hfinite
  have hround := mul_roundDiv_le (n * Nat.pow 2 1074) unit
  rw [hunits]
  generalize n * Nat.pow 2 1074 = count at *
  calc 2 * hiddenBit * (roundDiv count unit * unit)
      = hiddenBit * (2 * (unit * roundDiv count unit)) := by ring
    _ ≤ hiddenBit * (2 * count + unit) := Nat.mul_le_mul_left _ hround
    _ = 2 * hiddenBit * count + hiddenBit * unit := by ring
    _ ≤ 2 * hiddenBit * count + count := Nat.add_le_add_left hself _
    _ = (2 * hiddenBit + 1) * count := by ring

/-! ## Section 3: The limit -/

/-- Up to this number, products and quotients of doubles stay finite however
    they are rounded. It lies four steps below the infinities. -/
def limit : Nat := (2 * hiddenBit - 4) * Nat.pow 2 971

theorem limit_mul : limit * Nat.pow 2 1074 = (2 * hiddenBit - 4) * Nat.pow 2 2045 := by
  have hsum : 2045 = 971 + 1074 := rfl
  unfold limit
  generalize 2045 = s at hsum ⊢
  generalize 971 = t at hsum ⊢
  generalize 1074 = a at hsum ⊢
  rw [pow_two_of_eq_add hsum, Nat.mul_assoc]

theorem nearest_lt_infinity_of_le {num den : Nat} (hden : 0 < den)
    (h : num * Nat.pow 2 1074 ≤ den * ((2 * hiddenBit - 1) * Nat.pow 2 2045)) :
    nearest num den < infinity := by
  have htop : 2045 * hiddenBit + (2 * hiddenBit - 1) < infinity := by decide
  generalize 2045 = s at h htop
  exact Nat.lt_of_le_of_lt (nearest_le_of_le hden (by decide) (by decide) h) htop

theorem nearest_lt_infinity_of_le_limit {n : Nat} (h : n ≤ limit) : nearest n 1 < infinity := by
  refine nearest_lt_infinity_of_le Nat.one_pos ?_
  have hle := Nat.mul_le_mul_right (Nat.pow 2 1074) h
  rw [limit_mul] at hle
  generalize Nat.pow 2 2045 = top at hle ⊢
  rw [Nat.one_mul]
  exact Nat.le_trans hle (Nat.mul_le_mul_right _ (by omega))

/-- A product of two numbers up to the limit stays finite. -/
theorem mul_lt_infinity {a b : Nat} (ha : 0 < a) (hb : 0 < b) (h : a * b ≤ limit) :
    mul (nearest a 1) (nearest b 1) < infinity := by
  have ha' := unitsOf_nearest_le ha (nearest_lt_infinity_of_le_limit
    (Nat.le_trans (Nat.le_mul_of_pos_right a hb) h))
  have hb' := unitsOf_nearest_le hb (nearest_lt_infinity_of_le_limit
    (Nat.le_trans (Nat.le_mul_of_pos_left b ha) h))
  have hbits : (2 * hiddenBit + 1) * (2 * hiddenBit + 1) * (2 * hiddenBit - 4) ≤
      2 * hiddenBit * (2 * hiddenBit) * (2 * hiddenBit - 1) := by decide
  have hpos : 0 < 2 * hiddenBit * (2 * hiddenBit) := by decide
  rw [mul]
  refine nearest_lt_infinity_of_le ?_ ?_
  · generalize 2148 = c
    exact pow_two_pos c
  have hlimit := Nat.mul_le_mul_right (Nat.pow 2 1074) h
  rw [limit_mul] at hlimit
  have hsum : 2148 = 1074 + 1074 := rfl
  generalize 2148 = d at hsum ⊢
  generalize 1074 = c at hsum hlimit ha' hb' ⊢
  generalize 2045 = s at hlimit ⊢
  rw [pow_two_of_eq_add hsum]
  generalize unitsOf (nearest a 1) = x at *
  generalize unitsOf (nearest b 1) = y at *
  generalize Nat.pow 2 c = unit at *
  generalize Nat.pow 2 s = top at *
  generalize 2 * hiddenBit - 4 = low at *
  generalize 2 * hiddenBit - 1 = high at *
  generalize 2 * hiddenBit = bits at *
  -- Both errors together are less than what the limit leaves free.
  refine Nat.le_of_mul_le_mul_left ?_ hpos
  calc bits * bits * (x * y * unit) = bits * x * (bits * y) * unit := by ring
    _ ≤ (bits + 1) * (a * unit) * ((bits + 1) * (b * unit)) * unit :=
      Nat.mul_le_mul_right _ (Nat.mul_le_mul ha' hb')
    _ = (bits + 1) * (bits + 1) * (a * b * unit) * (unit * unit) := by ring
    _ ≤ (bits + 1) * (bits + 1) * (low * top) * (unit * unit) :=
      Nat.mul_le_mul_right _ (Nat.mul_le_mul_left _ hlimit)
    _ = (bits + 1) * (bits + 1) * low * (top * (unit * unit)) := by ring
    _ ≤ bits * bits * high * (top * (unit * unit)) := Nat.mul_le_mul_right _ hbits
    _ = bits * bits * (unit * unit * (high * top)) := by ring

/-- A finite magnitude stays finite when it is divided by one or more. -/
theorem div_lt_infinity {a b : Nat} (ha : a < infinity) (hb : Nat.pow 2 1074 ≤ unitsOf b) :
    div a b < infinity := by
  have htop : infinity = 2045 * hiddenBit + (2 * hiddenBit - 1) + 1 := by decide
  have hunits : unitsOf a ≤ (2 * hiddenBit - 1) * Nat.pow 2 2045 := by
    generalize 2045 = s at htop ⊢
    exact unitsOf_le_of_le (by decide) (by decide) (by omega)
  have hpos : 0 < unitsOf b := by
    generalize 1074 = c at hb
    exact Nat.lt_of_lt_of_le (pow_two_pos c) hb
  refine nearest_lt_infinity_of_le hpos ?_
  generalize 1074 = c at hb ⊢
  generalize 2045 = s at hunits ⊢
  rw [Nat.mul_comm]
  exact Nat.mul_le_mul hb hunits

theorem ten_pow_le_limit {n : Nat} (hn : n ≤ 308) : Nat.pow 10 n ≤ limit := by
  have hall : ∀ n ∈ List.range 309, Nat.pow 10 n ≤ limit := by decide +kernel
  exact hall n (List.mem_range.mpr (by omega))

theorem limit_lt_ten_pow {n : Nat} (hn : 308 < n) : limit < Nat.pow 10 n := by
  induction hn with
  | refl => decide +kernel
  | step _ ih => exact Nat.lt_of_lt_of_le ih (Nat.le_mul_of_pos_right _ (by decide))

theorem le_unitsOf_tenTo {n : Nat} (hn : n ≤ 308) : Nat.pow 2 1074 ≤ unitsOf (tenTo n) :=
  le_unitsOf_nearest (Nat.pow_pos (by decide))
    (nearest_lt_infinity_of_le_limit (ten_pow_le_limit hn))

/-- A number scaled by a power of ten is finite up to the limit. -/
theorem scaled_lt_infinity {significand : Nat} {exponent : Int}
    (hsignificand : significand < 0x10000000000000000)
    (h : 0 ≤ exponent → significand * Nat.pow 10 exponent.toNat ≤ limit) :
    scaled significand exponent < infinity := by
  have hinf : 0 < infinity := by decide
  have hstart := nearest_lt_infinity hsignificand
  unfold scaled
  dsimp only
  split_ifs with hzero hlarge hpos hsmall hsmaller
  · exact hinf
  · have hover := limit_lt_ten_pow (show 308 < exponent.toNat by omega)
    have hle := h (by omega)
    have hself : Nat.pow 10 exponent.toNat ≤ significand * Nat.pow 10 exponent.toNat :=
      Nat.le_mul_of_pos_left _ (by omega)
    omega
  · exact mul_lt_infinity (by omega) (Nat.pow_pos (by decide)) (h hpos)
  · exact div_lt_infinity hstart (le_unitsOf_tenTo hsmall)
  · have hfirst := div_lt_infinity hstart (le_unitsOf_tenTo (Nat.le_refl 308))
    exact div_lt_infinity hfirst (le_unitsOf_tenTo (by omega))
  · exact hinf

/-! ## Section 4: Decimals up to the limit -/

/-- The decimal is no larger than the limit. -/
def WithinLimit (d : Decimal) : Prop :=
  d.digits * Nat.pow 10 d.exponent.toNat ≤ limit * Nat.pow 10 (-d.exponent).toNat

/-- A decimal to which a magnitude below the last four is nearest. -/
theorem withinLimit_of_ofDecimal {d : Decimal} {m : Nat} (hm : m < infinity - 4)
    (h : ofDecimal d.digits d.exponent = m) : WithinLimit d := by
  have hone : 1 ≤ limit := by decide +kernel
  unfold ofDecimal at h
  split_ifs at h with hsmall hlarge
  · rcases hsmall with hzero | hsmall
    · rw [WithinLimit, hzero, Nat.zero_mul]
      exact Nat.zero_le _
    · -- So small a power of ten outweighs all digits.
      have hdigits : d.digits < 2 ^ (d.digits.log2 + 1) := Nat.lt_log2_self
      have hpow : 2 ^ (d.digits.log2 + 1) ≤ 10 ^ (-d.exponent).toNat :=
        Nat.le_trans (Nat.pow_le_pow_left (by decide) _)
          (Nat.pow_le_pow_right (by decide) (by omega))
      have hscale : 10 ^ (-d.exponent).toNat ≤ limit * 10 ^ (-d.exponent).toNat :=
        Nat.le_mul_of_pos_left _ hone
      have hexponent : d.exponent.toNat = 0 := by omega
      rw [WithinLimit, hexponent, show Nat.pow 10 0 = 1 from rfl, Nat.mul_one]
      exact Nat.le_of_lt (Nat.lt_of_lt_of_le hdigits (Nat.le_trans hpow hscale))
  · omega
  · rw [WithinLimit]
    generalize hden : Nat.pow 10 (-d.exponent).toNat = den at h ⊢
    generalize d.digits * Nat.pow 10 d.exponent.toNat = num at h ⊢
    have hpos : 0 < den := hden ▸ Nat.pow_pos (by decide)
    by_contra hlt
    have htop : 2045 * hiddenBit + (2 * hiddenBit - 4) = infinity - 4 := by decide
    have hle : den * ((2 * hiddenBit - 4) * Nat.pow 2 2045) ≤ num * Nat.pow 2 1074 := by
      rw [← limit_mul]
      generalize 1074 = a
      rw [← Nat.mul_assoc, Nat.mul_comm den]
      exact Nat.mul_le_mul_right _ (by omega)
    generalize 2045 = s at htop hle
    have hbound := le_nearest hpos (by decide) (by decide) (by omega) hle
    omega

theorem withinLimit_exactDecimal {m : Nat} (hm : m < infinity - 4) :
    WithinLimit (exactDecimal m) := by
  have htop : infinity - 4 ≤ 2045 * hiddenBit + (2 * hiddenBit - 4) := by decide
  have hunits : unitsOf m ≤ (2 * hiddenBit - 4) * Nat.pow 2 2045 := by
    generalize 2045 = s at htop ⊢
    exact unitsOf_le_of_le (by decide) (by decide) (by omega)
  rw [← limit_mul] at hunits
  -- `10 ^ 1074` has the units of one and the powers of five.
  have hten : ∀ a, Nat.pow 10 a = Nat.pow 2 a * Nat.pow 5 a := fun a => Nat.mul_pow 2 5 a
  rw [WithinLimit, exactDecimal]
  dsimp only
  rw [show (-1074 : Int).toNat = 0 from rfl, show (- -1074 : Int).toNat = 1074 from rfl]
  generalize 1074 = a at hunits ⊢
  rw [hten a, ← Nat.mul_assoc, show Nat.pow 10 0 = 1 from rfl, Nat.mul_one]
  exact Nat.mul_le_mul_right _ hunits

theorem ofDecimal_of_ofWidth? {tie : Tie} {m width dropped : Nat} {exact d : Decimal}
    (h : ofWidth? tie m exact width dropped = some d) : ofDecimal d.digits d.exponent = m := by
  unfold ofWidth? at h
  dsimp only at h
  split at h
  · rename_i hbelow habove
    split_ifs at h <;> cases h
    · exact eq_of_beq hbelow
    · exact eq_of_beq habove
  · rename_i hbelow _
    cases h
    exact eq_of_beq hbelow
  · rename_i _ habove
    cases h
    exact eq_of_beq habove
  · cases h

/-- **The digits that are written for a magnitude** below the last four name a
    number up to the limit. -/
theorem withinLimit_shortest (tie : Tie) {m : Nat} (hm : m < infinity - 4) :
    WithinLimit (shortest tie m) := by
  unfold shortest
  split_ifs with hzero
  · rw [WithinLimit, Nat.zero_mul]
    exact Nat.zero_le _
  · dsimp only
    cases hfind : (List.range 17).findSome? fun k =>
        ofWidth? tie m (exactDecimal m) (k + 1) ((exactDecimal m).width - (k + 1)) with
    | none => exact withinLimit_exactDecimal hm
    | some d =>
      obtain ⟨k, -, hk⟩ := List.exists_of_findSome?_eq_some hfind
      exact withinLimit_of_ofDecimal hm (ofDecimal_of_ofWidth? hk)

/-! ## Section 5: The last four magnitudes -/

/-- The decimal with the fewest digits, where the exact one has `w + 1`. -/
theorem shortest_of_findSome {tie : Tie} {m w : Nat} {d : Decimal} (hm : m ≠ 0)
    (hlower : Nat.pow 10 w ≤ (exactDecimal m).digits)
    (hupper : (exactDecimal m).digits < Nat.pow 10 (w + 1))
    (h : ((List.range 17).findSome? fun k =>
      ofWidth? tie m (exactDecimal m) (k + 1) (w - k)) = some d) : shortest tie m = d := by
  have hle : (exactDecimal m).width ≤ w + 1 :=
    (Nat.length_toDigits_le_iff (by decide) (Nat.succ_pos w)).mpr hupper
  have hlt : 10 ^ w < 10 ^ (exactDecimal m).width :=
    Nat.lt_of_le_of_lt hlower (Decimal.digits_lt _)
  have hwidth : (exactDecimal m).width = w + 1 := by
    have hw := (Nat.pow_lt_pow_iff_right (by decide)).mp hlt
    omega
  rw [shortest, if_neg hm]
  dsimp only
  rw [hwidth]
  simp only [Nat.add_sub_add_right]
  rw [h, Option.getD_some]

theorem shortest_last : ∀ k ∈ [1, 2, 3, 4],
    shortest .toEven (infinity - k) = ⟨17976931348623159 - 2 * k, 292⟩ := by
  simp only [List.forall_mem_cons]
  refine ⟨?_, ?_, ?_, ?_, fun _ h => absurd h List.not_mem_nil⟩ <;>
    exact shortest_of_findSome (w := 1382) (by decide) (by decide +kernel) (by decide +kernel)
      (by decide +kernel)

/-- A decimal that is read as finite, and also with any smaller exponent: it is
    up to the limit, or all its digits are kept and it is up to the limit one
    exponent below. -/
def StaysFinite (d : Decimal) : Prop :=
  WithinLimit d ∨ d.digits < 0x10000000000000000 ∧ scaled d.digits d.exponent < infinity ∧
    WithinLimit ⟨d.digits, d.exponent - 1⟩

instance (d : Decimal) : Decidable (WithinLimit d) :=
  inferInstanceAs (Decidable (_ ≤ _))

instance (d : Decimal) : Decidable (StaysFinite d) :=
  inferInstanceAs (Decidable (_ ∨ _))

/-- **The digits that are written for a finite magnitude** are read as finite. -/
theorem staysFinite_shortest {m : Nat} (hm : m < infinity) :
    StaysFinite (shortest .toEven m) := by
  by_cases hlow : m < infinity - 4
  · exact .inl (withinLimit_shortest .toEven hlow)
  · -- There the margin is so narrow that nothing less than the computation shows it.
    have hlast : ∀ k ∈ [1, 2, 3, 4], StaysFinite ⟨17976931348623159 - 2 * k, 292⟩ := by
      decide +kernel
    obtain ⟨k, hk, rfl⟩ : ∃ k ∈ [1, 2, 3, 4], m = infinity - k := by
      refine ⟨infinity - m, ?_, by omega⟩
      simp only [List.mem_cons, List.not_mem_nil, or_false]
      omega
    rw [shortest_last k hk]
    exact hlast k hk

end Double

end BlockFlow
