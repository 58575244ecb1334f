import BlockFlow.Wire.Basic
import Mathlib.Data.List.Basic
import Mathlib.Tactic.Ring

/-! # Parsers that take what was written

    `Takes p bytes a` says that the parser `p` reads `a` from `bytes` and
    leaves whatever follows them. The bytes carry no marks, so this is all
    that keeps two neighbours apart.

    - `Takes.bind` puts parsers in a row, as the bytes are put in a row.
    - Then there is one lemma for each pair of a writer and a parser. The
      number ones need bounds: a varint has room for thirty-two or sixty-four
      bits, and no more.

    Layouts of whole types follow from these without looking at bytes
    again. -/

namespace BlockFlow.Wire

/-! ## Section 1: Taking exactly what is there -/

/-- The parser reads the value from the bytes and leaves what follows. -/
def Takes {α : Type} (p : Parser α) (bytes : Bytes) (a : α) : Prop :=
  ∀ rest, p (bytes ++ rest) = .ok (a, rest)

namespace Takes

variable {α β : Type} {p : Parser α} {bytes : Bytes} {a : α}

/-- Two parsers in a row take two pieces in a row. -/
theorem bind {f : α → Parser β} {more : Bytes} {b : β} (hp : Takes p bytes a)
    (hf : Takes (f a) more b) : Takes (p >>= f) (bytes ++ more) b := by
  intro rest
  rw [List.append_assoc]
  show (p (bytes ++ (more ++ rest)) >>= fun r => f r.1 r.2) = _
  rw [hp]
  exact hf rest

/-- Making something of a value takes no bytes. -/
theorem bind_return {f : α → β} (hp : Takes p bytes a) :
    Takes (do let a ← p; return f a) bytes (f a) := by
  intro rest
  show (p (bytes ++ rest) >>= fun r => (return f r.1 : Parser β) r.2) = _
  rw [hp]
  rfl

end Takes

theorem takes_byte (b : UInt8) : Takes takeByte [b] b := by
  intro rest
  rfl

theorem takes_bytes (bytes : Bytes) : Takes (takeBytes bytes.length) bytes bytes := by
  intro rest
  simp [takeBytes]

/-! ## Section 2: Numbers -/

/-- A number below 128 is one byte, which must be allowed in its place. -/
theorem takes_varint_of_lt {lastMax count n : Nat} (h : n < 128)
    (hlast : count = 0 → n ≤ lastMax) : Takes (takeVarint lastMax (count + 1)) (varint n) n := by
  intro rest
  have hbyte : (UInt8.ofNat n).toNat = n := UInt8.toNat_ofNat_of_lt' (Nat.lt_trans h (by decide))
  rw [varint, if_pos h]
  show (if (UInt8.ofNat n).toNat < 128 then _ else _ : Parser Nat) rest = _
  rw [hbyte, if_pos h, if_neg (by omega)]
  rfl

/-- A varint is taken back if it fits: all bytes but the last hold seven bits,
    and a byte in the last place holds at most `lastMax`. -/
theorem takes_varint {lastMax : Nat} (hlast : lastMax < 128) {count : Nat} :
    ∀ {n : Nat}, n < (lastMax + 1) * 128 ^ count →
      Takes (takeVarint lastMax (count + 1)) (varint n) n := by
  induction count with
  | zero =>
    intro n hn
    exact takes_varint_of_lt (by omega) (by omega)
  | succ count ih =>
    intro n hn
    by_cases hsmall : n < 128
    · exact takes_varint_of_lt hsmall (by omega)
    · -- The first byte holds the low seven bits; the others have room for the rest.
      have hhigh : n / 128 < (lastMax + 1) * 128 ^ count := by
        rw [Nat.div_lt_iff_lt_mul (by decide)]
        calc n < (lastMax + 1) * 128 ^ (count + 1) := hn
          _ = (lastMax + 1) * 128 ^ count * 128 := by ring
      have hsize : n % 128 + 128 < UInt8.size := by
        show n % 128 + 128 < 256
        omega
      have hbyte : (UInt8.ofNat (n % 128 + 128)).toNat = n % 128 + 128 :=
        UInt8.toNat_ofNat_of_lt' hsize
      have hvalue : n % 128 + 128 - 128 + 128 * (n / 128) = n := by omega
      rw [varint, if_neg hsmall, takeVarint]
      refine (takes_byte _).bind ?_
      rw [hbyte, if_neg (by omega)]
      have htake := (ih hhigh).bind_return (f := fun high => n % 128 + 128 - 128 + 128 * high)
      rw [hvalue] at htake
      exact htake

theorem takes_index {n : Nat} (h : n < 2 ^ 32) : Takes takeIndex (varint n) n :=
  takes_varint (by decide) (by omega)

/-- A variant with content: its number, and then the content. -/
theorem takes_variant {β : Type} (n : Nat) (hn : n < 2 ^ 32) {f : Nat → Parser β} {bytes : Bytes}
    {b : β} (h : Takes (f n) bytes b) : Takes (takeIndex >>= f) (varint n ++ bytes) b :=
  (takes_index hn).bind h

/-- A variant without content: its number. -/
theorem takes_unit_variant {β : Type} (n : Nat) (hn : n < 2 ^ 32) {f : Nat → Parser β} {b : β}
    (h : f n = return b) : Takes (takeIndex >>= f) (varint n) b := by
  rw [← List.append_nil (varint n)]
  refine takes_variant n hn ?_
  rw [h]
  intro rest
  rfl

theorem takes_nat {n : Nat} (h : n < 2 ^ 64) : Takes takeNat (varint n) n :=
  takes_varint (by decide) (by omega)

theorem unzigzag_zigzag (n : Int) : unzigzag (zigzag n) = n := by
  unfold unzigzag zigzag
  by_cases h : 0 ≤ n
  · rw [if_pos h, if_pos (by omega)]
    omega
  · rw [if_neg h, if_neg (by omega)]
    omega

theorem zigzag_lt {n : Int} (hlow : -2 ^ 63 ≤ n) (hhigh : n < 2 ^ 63) : zigzag n < 2 ^ 64 := by
  unfold zigzag
  split <;> omega

theorem takes_int (n : Int64) : Takes takeInt (varint (zigzag n.toInt)) n := by
  have hfits : zigzag n.toInt < 2 ^ 64 := zigzag_lt n.le_toInt n.toInt_lt
  have htake := (takes_nat hfits).bind_return (f := fun n => Int64.ofInt (unzigzag n))
  rw [unzigzag_zigzag, Int64.ofInt_toInt] at htake
  exact htake

@[simp] theorem length_littleEndian (count n : Nat) : (littleEndian count n).length = count := by
  induction count generalizing n with
  | zero => rfl
  | succ count ih => simp [littleEndian, ih]

theorem ofLittleEndian_littleEndian (count n : Nat) :
    ofLittleEndian (littleEndian count n) = n % 256 ^ count := by
  induction count generalizing n with
  | zero => simp [littleEndian, ofLittleEndian, Nat.mod_one]
  | succ count ih =>
    have hbyte : (UInt8.ofNat n).toNat = n % 256 := UInt8.toNat_ofNat'
    have hpow : 256 ^ (count + 1) = 256 * 256 ^ count := by ring
    rw [littleEndian, ofLittleEndian, ih, hbyte, hpow, Nat.mod_mul]

/-! ## Section 3: Texts, flags, options and lists -/

theorem takes_text {s : String} (h : s.utf8ByteSize < 2 ^ 64) : Takes takeText (textBytes s) s := by
  have hutf8 : String.fromUTF8? ⟨s.toByteArray.data.toList.toArray⟩ = some s := by
    simp [String.fromUTF8?, String.fromUTF8, s.isValidUTF8]
  have hbytes := takes_bytes s.toByteArray.data.toList
  rw [Array.length_toList] at hbytes
  refine (takes_nat h).bind ?_
  -- The check for valid UTF-8 takes no bytes of its own.
  rw [← List.append_nil s.toByteArray.data.toList]
  refine hbytes.bind ?_
  intro rest
  rw [hutf8]
  rfl

theorem takes_flag (b : Bool) : Takes takeFlag (flagBytes b) b := by
  intro rest
  cases b <;> rfl

theorem takes_none {α : Type} (p : Parser α) : Takes (takeOption p) [0] none := by
  intro rest
  rfl

theorem takes_some {α : Type} {p : Parser α} {bytes : Bytes} {a : α} (h : Takes p bytes a) :
    Takes (takeOption p) (1 :: bytes) (some a) := by
  refine (takes_byte 1).bind ?_
  exact h.bind_return

theorem takes_items {α : Type} {p : Parser α} {write : α → Bytes} {items : List α}
    (h : ∀ a ∈ items, Takes p (write a) a) :
    Takes (takeItems p items.length) (items.flatMap write) items := by
  induction items with
  | nil =>
    intro rest
    rfl
  | cons first items ih =>
    have hrest := ih fun a ha => h a (List.mem_cons_of_mem _ ha)
    rw [List.flatMap_cons]
    exact (h first List.mem_cons_self).bind hrest.bind_return

/-- A list is taken back if its length fits and each of its items is. -/
theorem takes_list {α : Type} {p : Parser α} {write : α → Bytes} {items : List α}
    (hlength : items.length < 2 ^ 64) (h : ∀ a ∈ items, Takes p (write a) a) :
    Takes (takeList p) (varint items.length ++ items.flatMap write) items :=
  (takes_nat hlength).bind (takes_items h)

/-- One of a few values is taken back by its position among them. -/
theorem takes_oneOf {α : Type} [DecidableEq α] {all : List α} (hall : all.length < 2 ^ 32)
    {a : α} (ha : a ∈ all) : Takes (takeOneOf all) (varint (all.idxOf a)) a := by
  have hlt : all.idxOf a < 2 ^ 32 := Nat.lt_trans (List.idxOf_lt_length_iff.mpr ha) hall
  rw [← List.append_nil (varint _)]
  refine (takes_index hlt).bind ?_
  intro rest
  rw [List.getElem?_idxOf ha]
  rfl

end BlockFlow.Wire
