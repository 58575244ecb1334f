import BlockFlow.Proofs.Wire.Length

/-! # The bytes of a program are the shortest

    The same program can be decoded from many rows of bytes, and the bytes
    that are written for it are the one shortest row among them. The proof
    goes from accepted bytes to the program, against the round trip.

    - `Ensures p post` says of whatever the parser `p` takes that the value
      and the bytes that were taken for it satisfy `post`. `Ensures.bind` puts
      parsers in a row and the bytes they take side by side.
    - A number can be spelled with more bytes than it needs (`Spells`). Then
      there are strictly more of them, so nothing is lost at the limits of
      thirty-two and sixty-four bits (`Spells.eq_or_length_lt`).
    - All else has one spelling. So what is taken for a program stretches the
      bytes that are written for it (`Stretches`): some of its numbers are
      spelled with more bytes. Being the same or strictly longer adds up over
      the parts of a program (`Stretches.eq_or_length_lt`). -/

namespace BlockFlow

namespace Wire

/-! ## Section 1: What a parser has taken -/

/-- What is known of every value that the parser takes, and of the bytes that
    it takes for it. -/
def Ensures {α : Type} (p : Parser α) (post : α → Bytes → Prop) : Prop :=
  ∀ bytes a rest, p bytes = .ok (a, rest) → ∃ used, bytes = used ++ rest ∧ post a used

namespace Ensures

variable {α β : Type} {p : Parser α} {post : α → Bytes → Prop} {post' : β → Bytes → Prop}

theorem value {a : α} (h : post a []) : Ensures (return a : Parser α) post := by
  intro bytes b rest hvalue
  obtain ⟨rfl, rfl⟩ := Prod.mk.inj (Except.ok.inj hvalue)
  exact ⟨[], rfl, h⟩

theorem error (e : WireError) : Ensures (throw e : Parser α) post := by
  intro bytes a rest h
  cases h

/-- Two parsers in a row take their bytes side by side. -/
theorem bind {f : α → Parser β} (hp : Ensures p post)
    (hf : ∀ a used, post a used → Ensures (f a) fun b more => post' b (used ++ more)) :
    Ensures (p >>= f) post' := by
  intro bytes b rest h
  change (p bytes >>= fun r => f r.1 r.2) = _ at h
  cases hfirst : p bytes with
  | error e =>
    rw [hfirst] at h
    cases h
  | ok r =>
    obtain ⟨a, middle⟩ := r
    rw [hfirst] at h
    obtain ⟨used, rfl, hpost⟩ := hp bytes a middle hfirst
    obtain ⟨more, rfl, hpost'⟩ := hf a used hpost middle b rest h
    exact ⟨used ++ more, (List.append_assoc used more rest).symm, hpost'⟩

/-- Making something of a value takes no bytes. -/
theorem bind_return {f : α → β} (hp : Ensures p post)
    (h : ∀ a used, post a used → post' (f a) used) :
    Ensures (do let a ← p; return f a) post' := by
  refine hp.bind fun a used hpost => .value ?_
  rw [List.append_nil]
  exact h a used hpost

end Ensures

theorem ensures_byte : Ensures takeByte fun b used => used = [b] := by
  intro bytes b rest h
  cases bytes with
  | nil => cases h
  | cons c bytes =>
    obtain ⟨rfl, rfl⟩ := Prod.mk.inj (Except.ok.inj h)
    exact ⟨[c], rfl, rfl⟩

theorem ensures_bytes (count : Nat) :
    Ensures (takeBytes count) fun taken used => used = taken ∧ taken.length = count := by
  intro bytes taken rest h
  rw [takeBytes] at h
  split at h
  · next hcount =>
    obtain ⟨rfl, rfl⟩ := Prod.mk.inj (Except.ok.inj h)
    exact ⟨bytes.take count, (List.take_append_drop count bytes).symm, rfl,
      List.length_take_of_le hcount⟩
  · cases h

/-! ## Section 2: Numbers -/

/-- **The spellings of a number**: seven bits to a byte, the lowest first, and
    as many zero bits behind them as one likes. -/
inductive Spells : Bytes → Nat → Prop where
  /-- The last byte. -/
  | last {b : UInt8} (h : b.toNat < 128) : Spells [b] b.toNat
  /-- A byte with more behind it. -/
  | more {b : UInt8} {bytes : Bytes} {high : Nat} (h : 128 ≤ b.toNat) (hrest : Spells bytes high) :
      Spells (b :: bytes) (b.toNat - 128 + 128 * high)

theorem Spells.length_pos {used : Bytes} {n : Nat} (h : Spells used n) : 0 < used.length := by
  cases h <;> exact Nat.succ_pos _

/-- **What is written for a number is its one shortest spelling.** -/
theorem Spells.eq_or_length_lt {used : Bytes} {n : Nat} (h : Spells used n) :
    used = varint n ∨ (varint n).length < used.length := by
  induction h with
  | @last b hb =>
    rw [varint, if_pos hb, UInt8.ofNat_toNat]
    exact .inl rfl
  | @more b bytes high hb hrest ih =>
    have hbyte := b.toNat_lt
    by_cases hsmall : b.toNat - 128 + 128 * high < 128
    · -- The bytes behind the first one hold nothing but zeros.
      have hpos := hrest.length_pos
      rw [varint, if_pos hsmall, List.length_cons, List.length_cons, List.length_nil]
      exact .inr (by omega)
    · have hlow : (b.toNat - 128 + 128 * high) % 128 + 128 = b.toNat := by omega
      have hhigh : (b.toNat - 128 + 128 * high) / 128 = high := by omega
      rw [varint, if_neg hsmall, hlow, hhigh, UInt8.ofNat_toNat]
      rcases ih with rfl | hlt
      · exact .inl rfl
      · exact .inr (Nat.succ_lt_succ hlt)

/-- A number that is taken was spelled, and fits the room for it. -/
theorem ensures_varint (lastMax count : Nat) :
    Ensures (takeVarint lastMax (count + 1)) fun n used =>
      Spells used n ∧ n < (lastMax + 1) * 128 ^ count := by
  induction count with
  | zero =>
    rw [takeVarint]
    refine ensures_byte.bind ?_
    rintro b _ rfl
    split
    · next hb =>
      split
      · exact .error .badVarint
      · next hle => exact .value ⟨.last hb, by omega⟩
    · -- There is no room for a byte behind the last one.
      have hnone : Ensures (takeVarint lastMax 0) fun _ _ => False := .error .badVarint
      exact hnone.bind fun _ _ h => h.elim
  | succ count ih =>
    rw [takeVarint]
    refine ensures_byte.bind ?_
    rintro b _ rfl
    have hpow : 128 ^ (count + 1) = 128 * 128 ^ count := by ring
    have hbyte := b.toNat_lt
    split
    · next hb =>
      rw [if_neg (by omega)]
      refine .value ⟨.last hb, ?_⟩
      have hroom : 0 < 128 ^ count := Nat.pow_pos (by decide)
      calc b.toNat < 128 * 128 ^ count := by omega
        _ ≤ (lastMax + 1) * 128 ^ (count + 1) := by
          rw [hpow]
          exact Nat.le_mul_of_pos_left _ (Nat.succ_pos _)
    · next hb =>
      refine ih.bind_return ?_
      rintro high used ⟨hspells, hfits⟩
      refine ⟨.more (Nat.le_of_not_lt hb) hspells, ?_⟩
      calc b.toNat - 128 + 128 * high < 128 * (high + 1) := by omega
        _ ≤ 128 * ((lastMax + 1) * 128 ^ count) := Nat.mul_le_mul_left _ hfits
        _ = (lastMax + 1) * 128 ^ (count + 1) := by ring

theorem zigzag_unzigzag (n : Nat) : zigzag (unzigzag n) = n := by
  unfold zigzag unzigzag
  split <;> split <;> omega

theorem unzigzag_bounds {n : Nat} (h : n < 2 ^ 64) :
    -2 ^ 63 ≤ unzigzag n ∧ unzigzag n < 2 ^ 63 := by
  unfold unzigzag
  split <;> omega

/-- The bytes of a number, the lowest first, are those it was made of. -/
theorem littleEndian_ofLittleEndian (bytes : Bytes) :
    littleEndian bytes.length (ofLittleEndian bytes) = bytes := by
  induction bytes with
  | nil => rfl
  | cons b bytes ih =>
    have hbyte := b.toNat_lt
    have hlow : UInt8.ofNat (b.toNat + 256 * ofLittleEndian bytes) = b := by
      rw [← UInt8.toNat_inj, UInt8.toNat_ofNat']
      omega
    have hhigh : (b.toNat + 256 * ofLittleEndian bytes) / 256 = ofLittleEndian bytes := by omega
    rw [ofLittleEndian, List.length_cons, littleEndian, hlow, hhigh, ih]

theorem ofLittleEndian_lt (bytes : Bytes) : ofLittleEndian bytes < 256 ^ bytes.length := by
  induction bytes with
  | nil => exact Nat.one_pos
  | cons b bytes ih =>
    have hbyte := b.toNat_lt
    calc b.toNat + 256 * ofLittleEndian bytes < 256 * (ofLittleEndian bytes + 1) := by omega
      _ ≤ 256 * 256 ^ bytes.length := Nat.mul_le_mul_left _ ih
      _ = 256 ^ (b :: bytes).length := by rw [List.length_cons]; ring

/-! ## Section 3: Bytes with longer numbers in them -/

/-- **Rows of bytes that differ in the spelling of numbers only**: where the
    second one has the shortest spelling, the first one has any. -/
inductive Stretches : Bytes → Bytes → Prop where
  /-- The same bytes. -/
  | same (bytes : Bytes) : Stretches bytes bytes
  /-- A number. -/
  | number {used : Bytes} {n : Nat} (h : Spells used n) : Stretches used (varint n)
  /-- One part behind another. -/
  | append {used used' written written' : Bytes} (h : Stretches used written)
      (h' : Stretches used' written') : Stretches (used ++ used') (written ++ written')

theorem Stretches.eq_or_length_lt {used written : Bytes} (h : Stretches used written) :
    used = written ∨ written.length < used.length := by
  induction h with
  | same bytes => exact .inl rfl
  | number h => exact h.eq_or_length_lt
  | append _ _ ih ih' =>
    rw [List.length_append, List.length_append]
    rcases ih with rfl | hlt
    · rcases ih' with rfl | hlt'
      · exact .inl rfl
      · exact .inr (by omega)
    · -- One part that is longer is enough, as no part is shorter.
      rcases ih' with rfl | hlt' <;> exact .inr (by omega)

theorem ensures_index : Ensures takeIndex fun n used => Stretches used (varint n) := by
  intro bytes n rest h
  obtain ⟨used, hsplit, hspells, -⟩ := ensures_varint 15 4 bytes n rest h
  exact ⟨used, hsplit, .number hspells⟩

theorem ensures_nat :
    Ensures takeNat fun n used => n < 2 ^ 64 ∧ Stretches used (varint n) := by
  intro bytes n rest h
  obtain ⟨used, hsplit, hspells, hfits⟩ := ensures_varint 1 9 bytes n rest h
  exact ⟨used, hsplit, by omega, .number hspells⟩

theorem ensures_int :
    Ensures takeInt fun n used => Stretches used (varint (zigzag n.toInt)) := by
  refine ensures_nat.bind_return ?_
  rintro n used ⟨hfits, hstretches⟩
  -- The integer lies within sixty-four bits, so no bit of it is dropped.
  obtain ⟨hlow, hhigh⟩ := unzigzag_bounds hfits
  rw [Int64.toInt_ofInt_of_le hlow hhigh, zigzag_unzigzag]
  exact hstretches

theorem ensures_flag : Ensures takeFlag fun b used => Stretches used (flagBytes b) := by
  refine ensures_byte.bind ?_
  rintro b _ rfl
  split
  · next hb =>
    subst hb
    exact .value (.same [0])
  · split
    · next hb =>
      subst hb
      exact .value (.same [1])
    · exact .error .badBool

theorem ensures_text :
    Ensures takeText fun s used => FitsText s ∧ Stretches used (textBytes s) := by
  refine ensures_nat.bind ?_
  rintro count used ⟨hfits, hcount⟩
  refine (ensures_bytes count).bind ?_
  rintro _ bytes ⟨rfl, hlength⟩
  split
  · next s htext =>
    have hbytes : s.toByteArray.data.toList = bytes := by
      rw [String.fromUTF8?] at htext
      split at htext
      · obtain rfl := Option.some.inj htext
        rfl
      · cases htext
    have hsize : s.toByteArray.data.size = count := by
      rw [← hlength, ← hbytes, Array.length_toList]
    refine .value ⟨?_, ?_⟩
    · show s.toByteArray.data.size < 2 ^ 64
      rwa [hsize]
    · rw [List.append_nil, textBytes, hbytes, hsize]
      exact hcount.append (.same bytes)
  · exact .error .badText

section parts

variable {α : Type} {p : Parser α} {write : α → Bytes} {fits : α → Prop}

theorem ensures_option (h : Ensures p fun a used => fits a ∧ Stretches used (write a)) :
    Ensures (takeOption p) fun a? used =>
      (a? = none ∧ Stretches used [0]) ∨
        ∃ a, a? = some a ∧ fits a ∧ Stretches used (1 :: write a) := by
  refine ensures_byte.bind ?_
  rintro b _ rfl
  split
  · next hb =>
    subst hb
    exact .value (.inl ⟨rfl, .same [0]⟩)
  · split
    · next hb =>
      subst hb
      refine h.bind_return ?_
      rintro a used ⟨hfits, hstretches⟩
      exact .inr ⟨a, rfl, hfits, (Stretches.same [1]).append hstretches⟩
    · exact .error .badOption

theorem ensures_items (h : Ensures p fun a used => fits a ∧ Stretches used (write a))
    (count : Nat) :
    Ensures (takeItems p count) fun items used =>
      items.length = count ∧ (∀ a ∈ items, fits a) ∧ Stretches used (items.flatMap write) := by
  induction count with
  | zero => exact .value ⟨rfl, List.forall_mem_nil _, .same []⟩
  | succ count ih =>
    refine h.bind ?_
    rintro first used ⟨hfirst, hstretches⟩
    refine ih.bind_return ?_
    rintro items more ⟨hlength, hitems, hmore⟩
    refine ⟨congrArg Nat.succ hlength, List.forall_mem_cons.mpr ⟨hfirst, hitems⟩, ?_⟩
    rw [List.flatMap_cons]
    exact hstretches.append hmore

theorem ensures_list (h : Ensures p fun a used => fits a ∧ Stretches used (write a)) :
    Ensures (takeList p) fun items used =>
      FitsList items ∧ (∀ a ∈ items, fits a) ∧
        Stretches used (varint items.length ++ items.flatMap write) := by
  refine ensures_nat.bind ?_
  rintro count used ⟨hfits, hcount⟩
  intro bytes items rest htake
  obtain ⟨more, hsplit, hlength, hitems, hmore⟩ := ensures_items h count bytes items rest htake
  refine ⟨more, hsplit, ?_, hitems, ?_⟩
  · rw [FitsList, hlength]
    exact hfits
  · rw [hlength]
    exact hcount.append hmore

/-- The position of a value among values without repetitions is the one it was
    taken by. -/
theorem ensures_oneOf [DecidableEq α] {all : List α} (hall : all.Nodup) :
    Ensures (takeOneOf all) fun a used => Stretches used (varint (all.idxOf a)) := by
  refine ensures_index.bind fun n used hindex => ?_
  split
  · next a ha =>
    obtain ⟨hlt, rfl⟩ := List.getElem?_eq_some_iff.mp ha
    refine .value ?_
    rw [List.append_nil, hall.idxOf_getElem n hlt]
    exact hindex
  · exact .error .badVariant

end parts

end Wire

open Wire

/-! ## Section 4: Values, expressions and statements -/

theorem BinaryOp.ensures_take :
    Ensures (takeOneOf BinaryOp.all) fun op used => Stretches used op.toBytes :=
  ensures_oneOf (by decide)

theorem UnaryOp.ensures_take :
    Ensures (takeOneOf UnaryOp.all) fun op used => Stretches used op.toBytes :=
  ensures_oneOf (by decide)

theorem CallMode.ensures_take :
    Ensures (takeOneOf CallMode.all) fun mode used => Stretches used mode.toBytes :=
  ensures_oneOf (by decide)

/-- The bit pattern of a double is the one that its bytes hold. -/
theorem littleEndian_double {bytes : Bytes} (h : bytes.length = 8) :
    littleEndian 8 (UInt64.ofNat (ofLittleEndian bytes)).toNat = bytes := by
  have hlt := ofLittleEndian_lt bytes
  rw [h] at hlt
  have hvalue := littleEndian_ofLittleEndian bytes
  rw [h] at hvalue
  rwa [UInt64.toNat_ofNat_of_lt' (by simpa using hlt)]

theorem Value.ensures_take :
    Ensures Value.take fun v used => v.Fits ∧ Stretches used v.toBytes := by
  refine ensures_index.bind fun n used hn => ?_
  match n, hn with
  | 0, hn =>
    refine .value ⟨trivial, ?_⟩
    rwa [List.append_nil]
  | 1, hn => exact ensures_int.bind_return fun m more hm => ⟨trivial, hn.append hm⟩
  | 2, hn =>
    refine (ensures_bytes 8).bind_return ?_
    rintro _ bytes ⟨rfl, hlength⟩
    refine ⟨trivial, ?_⟩
    rw [Value.toBytes, littleEndian_double hlength]
    exact hn.append (.same bytes)
  | 3, hn => exact ensures_text.bind_return fun s more hs => ⟨hs.1, hn.append hs.2⟩
  | 4, hn => exact ensures_flag.bind_return fun b more hb => ⟨trivial, hn.append hb⟩
  | n + 5, _ => exact .error .badVariant

theorem Expr.listFits_of_forall {es : List Expr} (h : ∀ e ∈ es, e.Fits) : Expr.listFits es := by
  induction es with
  | nil => trivial
  | cons e es ih =>
    obtain ⟨he, hes⟩ := List.forall_mem_cons.mp h
    exact ⟨he, ih hes⟩

theorem Stmt.listFits_of_forall {ss : List Stmt} (h : ∀ s ∈ ss, s.Fits) : Stmt.listFits ss := by
  induction ss with
  | nil => trivial
  | cons s ss ih =>
    obtain ⟨hs, hss⟩ := List.forall_mem_cons.mp h
    exact ⟨hs, ih hss⟩

/-- A list of expressions that was taken item by item. -/
theorem Expr.ensures_list {p : Parser Expr}
    (h : Ensures p fun e used => e.Fits ∧ Stretches used e.toBytes) :
    Ensures (takeList p) fun es used =>
      (FitsList es ∧ Expr.listFits es) ∧
        Stretches used (varint es.length ++ Expr.listToBytes es) := by
  intro bytes es rest htake
  obtain ⟨used, hsplit, hlength, hfits, hstretches⟩ := Wire.ensures_list h bytes es rest htake
  rw [← Expr.listToBytes_eq_flatMap] at hstretches
  exact ⟨used, hsplit, ⟨hlength, Expr.listFits_of_forall hfits⟩, hstretches⟩

/-- A list of statements that was taken item by item. -/
theorem Stmt.ensures_list {p : Parser Stmt}
    (h : Ensures p fun s used => s.Fits ∧ Stretches used s.toBytes) :
    Ensures (takeList p) fun ss used =>
      (FitsList ss ∧ Stmt.listFits ss) ∧
        Stretches used (varint ss.length ++ Stmt.listToBytes ss) := by
  intro bytes ss rest htake
  obtain ⟨used, hsplit, hlength, hfits, hstretches⟩ := Wire.ensures_list h bytes ss rest htake
  rw [← Stmt.listToBytes_eq_flatMap] at hstretches
  exact ⟨used, hsplit, ⟨hlength, Stmt.listFits_of_forall hfits⟩, hstretches⟩

-- The cases are the variants in the order of their numbers. The bytes of the
-- parts are put behind each other as they were taken; the writer puts them
-- the same way, up to brackets.
mutual

theorem Expr.ensures_take :
    ∀ bound, Ensures (Expr.take bound) fun e used => e.Fits ∧ Stretches used e.toBytes
  | 0 => by
    rw [Expr.take]
    exact .error .endOfBytes
  | bound + 1 => by
    have hexpr := Expr.ensures_take bound
    have hexprs := Expr.ensures_list hexpr
    have hstmts := Stmt.ensures_list (Stmt.ensures_take bound)
    rw [Expr.take]
    refine ensures_index.bind fun n used hn => ?_
    match n, hn with
    | 0, hn =>
      refine Value.ensures_take.bind_return fun v used₁ hv => ⟨hv.1, ?_⟩
      rw [Expr.toBytes]
      exact hn.append hv.2
    | 1, hn =>
      refine ensures_text.bind_return fun name used₁ hname => ⟨hname.1, ?_⟩
      rw [Expr.toBytes]
      exact hn.append hname.2
    | 2, hn =>
      refine BinaryOp.ensures_take.bind fun op used₁ hop => hexpr.bind fun left used₂ hleft =>
        hexpr.bind_return fun right used₃ hright => ⟨⟨hleft.1, hright.1⟩, ?_⟩
      simp only [Expr.toBytes, List.append_assoc]
      exact hn.append (hop.append (hleft.2.append hright.2))
    | 3, hn =>
      refine UnaryOp.ensures_take.bind fun op used₁ hop => hexpr.bind_return fun arg used₂ harg =>
        ⟨harg.1, ?_⟩
      simp only [Expr.toBytes, List.append_assoc]
      exact hn.append (hop.append harg.2)
    | 4, hn =>
      refine hexpr.bind fun callee used₁ hcallee => hexprs.bind fun args used₂ hargs =>
        CallMode.ensures_take.bind_return fun mode used₃ hmode => ⟨⟨hcallee.1, hargs.1⟩, ?_⟩
      simp only [Expr.toBytes, List.append_assoc]
      rw [← List.append_assoc (varint args.length)]
      exact hn.append (hcallee.2.append (hargs.2.append hmode))
    | 5, hn =>
      refine hexpr.bind fun object used₁ hobject => ensures_text.bind_return
        fun property used₂ hproperty => ⟨⟨hobject.1, hproperty.1⟩, ?_⟩
      simp only [Expr.toBytes, List.append_assoc]
      exact hn.append (hobject.2.append hproperty.2)
    | 6, hn =>
      refine (Wire.ensures_list ensures_text).bind fun params used₁ hparams =>
        hstmts.bind fun body used₂ hbody => ensures_flag.bind_return fun isAsync used₃ hasync =>
          ⟨⟨hparams.1, hparams.2.1, hbody.1⟩, ?_⟩
      simp only [Expr.toBytes, List.append_assoc]
      rw [← List.append_assoc (varint params.length), ← List.append_assoc (varint body.length)]
      exact hn.append (hparams.2.2.append (hbody.2.append hasync))
    | n + 7, _ => exact .error .badVariant

theorem Stmt.ensures_take :
    ∀ bound, Ensures (Stmt.take bound) fun s used => s.Fits ∧ Stretches used s.toBytes
  | 0 => by
    rw [Stmt.take]
    exact .error .endOfBytes
  | bound + 1 => by
    have hexpr := Expr.ensures_take bound
    have hstmt := Stmt.ensures_take bound
    have hstmts := Stmt.ensures_list hstmt
    rw [Stmt.take]
    refine ensures_index.bind fun n used hn => ?_
    match n, hn with
    | 0, hn =>
      refine hexpr.bind fun test used₁ htest => hstmts.bind fun body used₂ hbody =>
        (ensures_option hstmts).bind_return fun orElse used₃ horElse => ?_
      rcases horElse with ⟨rfl, hnone⟩ | ⟨orElse, rfl, hfits, hsome⟩
      · refine ⟨⟨htest.1, hbody.1⟩, ?_⟩
        simp only [Stmt.toBytes, List.append_assoc]
        rw [← List.append_assoc (varint body.length)]
        exact hn.append (htest.2.append (hbody.2.append hnone))
      · refine ⟨⟨htest.1, hbody.1.1, hbody.1.2, hfits⟩, ?_⟩
        simp only [Stmt.toBytes, List.append_assoc, List.cons_append]
        rw [← List.append_assoc (varint body.length)]
        exact hn.append (htest.2.append (hbody.2.append hsome))
    | 1, hn =>
      refine hstmt.bind fun init used₁ hinit => hexpr.bind fun test used₂ htest =>
        hstmt.bind fun update used₃ hupdate => hstmts.bind_return fun body used₄ hbody =>
          ⟨⟨hinit.1, htest.1, hupdate.1, hbody.1⟩, ?_⟩
      simp only [Stmt.toBytes, List.append_assoc]
      exact hn.append (hinit.2.append (htest.2.append (hupdate.2.append hbody.2)))
    | 2, hn =>
      refine hexpr.bind fun test used₁ htest => hstmts.bind_return fun body used₂ hbody =>
        ⟨⟨htest.1, hbody.1⟩, ?_⟩
      simp only [Stmt.toBytes, List.append_assoc]
      exact hn.append (htest.2.append hbody.2)
    | 3, hn =>
      refine hstmts.bind fun body used₁ hbody => hexpr.bind_return fun test used₂ htest =>
        ⟨⟨hbody.1.1, hbody.1.2, htest.1⟩, ?_⟩
      simp only [Stmt.toBytes, List.append_assoc]
      rw [← List.append_assoc (varint body.length)]
      exact hn.append (hbody.2.append htest.2)
    | 4, hn =>
      refine hexpr.bind fun subject used₁ hsubject => hstmts.bind_return fun cases used₂ hcases =>
        ⟨⟨hsubject.1, hcases.1⟩, ?_⟩
      simp only [Stmt.toBytes, List.append_assoc]
      exact hn.append (hsubject.2.append hcases.2)
    | 5, hn =>
      refine (ensures_option hexpr).bind fun test used₁ htest => hstmts.bind_return
        fun body used₂ hbody => ?_
      rcases htest with ⟨rfl, hnone⟩ | ⟨test, rfl, hfits, hsome⟩
      · refine ⟨hbody.1, ?_⟩
        simp only [Stmt.toBytes, List.append_assoc, List.cons_append]
        exact hn.append (hnone.append hbody.2)
      · refine ⟨⟨hfits, hbody.1⟩, ?_⟩
        simp only [Stmt.toBytes, List.append_assoc, List.cons_append]
        exact hn.append (hsome.append hbody.2)
    | 6, hn =>
      refine .value ⟨trivial, ?_⟩
      rw [List.append_nil, Stmt.toBytes]
      exact hn
    | 7, hn =>
      refine ensures_text.bind fun name used₁ hname => hexpr.bind_return fun init used₂ hinit =>
        ⟨⟨hname.1, hinit.1⟩, ?_⟩
      simp only [Stmt.toBytes, List.append_assoc]
      exact hn.append (hname.2.append hinit.2)
    | 8, hn =>
      refine hexpr.bind fun target used₁ htarget => hexpr.bind_return fun value used₂ hvalue =>
        ⟨⟨htarget.1, hvalue.1⟩, ?_⟩
      simp only [Stmt.toBytes, List.append_assoc]
      exact hn.append (htarget.2.append hvalue.2)
    | 9, hn =>
      refine hexpr.bind_return fun e used₁ he => ⟨he.1, ?_⟩
      rw [Stmt.toBytes]
      exact hn.append he.2
    | 10, hn =>
      refine hexpr.bind_return fun e used₁ he => ⟨he.1, ?_⟩
      rw [Stmt.toBytes]
      exact hn.append he.2
    | n + 11, _ => exact .error .badVariant

end

/-! ## Section 5: Programs -/

/-- What is decoded fits, and the bytes it was decoded from stretch its own. -/
theorem Program.stretches_of_decode {bytes : Bytes} {p : Program}
    (h : Program.decode bytes = .ok p) :
    p.Fits ∧ ∃ used rest, bytes = used ++ rest ∧ Stretches used p.toBytes := by
  rw [Program.decode_eq] at h
  cases hbody : Program.takeBody bytes with
  | error e =>
    rw [hbody] at h
    cases h
  | ok r =>
    rw [hbody] at h
    obtain rfl := Except.ok.inj h
    obtain ⟨used, hsplit, hfits, hstretches⟩ :=
      Stmt.ensures_list (Stmt.ensures_take (bytes.length + 1)) bytes r.1 r.2 hbody
    exact ⟨hfits, used, r.2, hsplit, hstretches⟩

/-- A row of bytes from which the program is decoded, and none shorter is. -/
def Program.IsShortest (p : Program) (bytes : Bytes) : Prop :=
  Program.decode bytes = .ok p ∧
    ∀ other, Program.decode other = .ok p → bytes.length ≤ other.length

/-- **The bytes of a program are its one shortest form.** Bytes from which a
    program is decoded differ from its own in longer spellings of numbers and
    in what follows it. So they are no shorter, and the same if they are as
    long; its own bytes are the only shortest ones. -/
theorem Program.isShortest_toBytes_of_decode {bytes : Bytes} {p : Program}
    (h : Program.decode bytes = .ok p) :
    (∃ used rest, bytes = used ++ rest ∧ Stretches used p.toBytes) ∧
    p.toBytes.length ≤ bytes.length ∧
    (p.toBytes.length = bytes.length → bytes = p.toBytes) ∧
    (∀ other, p.IsShortest other ↔ other = p.toBytes) := by
  have hsame_or_longer : ∀ {other}, Program.decode other = .ok p →
      other = p.toBytes ∨ p.toBytes.length < other.length := by
    intro other hother
    obtain ⟨-, used, rest, rfl, hstretches⟩ := Program.stretches_of_decode hother
    rw [List.length_append]
    rcases hstretches.eq_or_length_lt with rfl | hlt
    · cases rest with
      | nil => exact .inl (List.append_nil _)
      | cons b rest => exact .inr (Nat.lt_add_of_pos_right (Nat.succ_pos _))
    · exact .inr (Nat.lt_add_right _ hlt)
  have hle : ∀ other, Program.decode other = .ok p → p.toBytes.length ≤ other.length := by
    intro other hother
    rcases hsame_or_longer hother with rfl | hlt
    · exact Nat.le_refl _
    · exact Nat.le_of_lt hlt
  obtain ⟨hfits, hstretches⟩ := Program.stretches_of_decode h
  have hown : Program.decode p.toBytes = .ok p := Program.decode_toBytes_of_fits hfits
  refine ⟨hstretches, hle bytes h, fun hlength => ?_, fun other => ⟨fun hshortest => ?_, ?_⟩⟩
  · exact (hsame_or_longer h).resolve_right (by omega)
  · have hno_longer := hshortest.2 p.toBytes hown
    exact (hsame_or_longer hshortest.1).resolve_right (by omega)
  · rintro rfl
    exact ⟨hown, hle⟩

theorem Program.isShortest_toBytes_of_decode_overlong :
    let p : Program := ⟨[.ret (.literal (.float ⟨0x7FF8000000000001⟩)), .brk]⟩
    let bytes : Bytes := [0x82, 0, 0x8A, 0x80, 0, 0, 0x82, 0, 1, 0, 0, 0, 0, 0, 0xF8, 0x7F,
      0x86, 0x80, 0x80, 0x80, 0, 0xFF]
    Program.decode bytes = .ok p ∧ p.toBytes.length ≤ bytes.length ∧
      ∀ other, p.IsShortest other ↔ other = p.toBytes := by
  intro p bytes
  have hdecode : Program.decode bytes = .ok p := rfl
  have hshortest := Program.isShortest_toBytes_of_decode hdecode
  exact ⟨hdecode, hshortest.2.1, hshortest.2.2.2⟩

end BlockFlow
