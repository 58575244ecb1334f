import BlockFlow.Proofs.Wire.Persistence

/-! # Bytes that are few enough

    Every item of a list takes at least one byte, and a text takes as many as
    it has. So no list and no text in a program is longer than the bytes of
    the program, and lengths fit sixty-four bits if that number does
    (`Program.fits_of_length_toBytes`). A program is then decoded from its own
    bytes, with no condition on its parts. -/

namespace BlockFlow

open Wire

/-! ## Section 1: Lists are no longer than their bytes -/

theorem Wire.length_varint_pos (n : Nat) : 0 < (varint n).length :=
  List.length_pos_iff.mpr (varint_ne_nil n)

theorem Wire.utf8ByteSize_le_length_textBytes (s : String) :
    s.utf8ByteSize ≤ (textBytes s).length := by
  rw [textBytes, List.length_append, Array.length_toList]
  exact Nat.le_add_left _ _

theorem Wire.length_textBytes_pos (s : String) : 0 < (textBytes s).length := by
  rw [textBytes, List.length_append]
  exact Nat.add_pos_left (length_varint_pos _) _

theorem Expr.length_toBytes_pos (e : Expr) : 0 < e.toBytes.length := by
  unfold Expr.toBytes
  split <;> simp [length_varint_pos]

theorem Stmt.length_toBytes_pos (s : Stmt) : 0 < s.toBytes.length := by
  unfold Stmt.toBytes
  split <;> simp [length_varint_pos]

/-- A list of which every item takes a byte is no longer than the bytes of its
    items. -/
theorem Wire.length_le_length_flatMap {α : Type} {toBytes : α → Bytes}
    (hpos : ∀ a, 0 < (toBytes a).length) (items : List α) :
    items.length ≤ (items.flatMap toBytes).length := by
  induction items with
  | nil => exact Nat.le_refl 0
  | cons item items ih =>
    have hitem := hpos item
    rw [List.flatMap_cons, List.length_append, List.length_cons]
    omega

theorem Wire.length_le_length_flatMap_of_mem {α : Type} {toBytes : α → Bytes} {item : α}
    {items : List α} (h : item ∈ items) :
    (toBytes item).length ≤ (items.flatMap toBytes).length := by
  obtain ⟨before, after, rfl⟩ := List.append_of_mem h
  rw [List.flatMap_append, List.flatMap_cons, List.length_append, List.length_append]
  omega

/-! ## Section 2: Parts fit if their bytes do -/

theorem Wire.fitsText_of_length {s : String} (h : (textBytes s).length < 2 ^ 64) : FitsText s :=
  Nat.lt_of_le_of_lt (utf8ByteSize_le_length_textBytes s) h

theorem Wire.fitsTexts_of_length (names : List String)
    (h : (names.flatMap textBytes).length < 2 ^ 64) :
    FitsList names ∧ ∀ name ∈ names, FitsText name := by
  refine ⟨Nat.lt_of_le_of_lt (length_le_length_flatMap length_textBytes_pos names) h, ?_⟩
  intro name hname
  exact fitsText_of_length (Nat.lt_of_le_of_lt (length_le_length_flatMap_of_mem hname) h)

theorem Expr.fitsList_of_length {es : List Expr} (h : (Expr.listToBytes es).length < 2 ^ 64) :
    FitsList es := by
  rw [Expr.listToBytes_eq_flatMap] at h
  exact Nat.lt_of_le_of_lt (length_le_length_flatMap Expr.length_toBytes_pos es) h

theorem Stmt.fitsList_of_length {ss : List Stmt} (h : (Stmt.listToBytes ss).length < 2 ^ 64) :
    FitsList ss := by
  rw [Stmt.listToBytes_eq_flatMap] at h
  exact Nat.lt_of_le_of_lt (length_le_length_flatMap Stmt.length_toBytes_pos ss) h

theorem Value.fits_of_length {v : Value} (h : v.toBytes.length < 2 ^ 64) : v.Fits := by
  cases v with
  | string s =>
    rw [Value.toBytes, List.length_append] at h
    exact fitsText_of_length (by omega)
  | _ => trivial

-- The bytes of a part are among those of the whole, so every case hands the
-- bound down.
mutual

theorem Expr.fits_of_length : ∀ e : Expr, e.toBytes.length < 2 ^ 64 → e.Fits
  | .literal v, h => by
    simp only [Expr.toBytes, List.length_append] at h
    exact Value.fits_of_length (by omega)
  | .ident name, h => by
    simp only [Expr.toBytes, List.length_append] at h
    exact fitsText_of_length (by omega)
  | .binary op left right, h => by
    simp only [Expr.toBytes, List.length_append] at h
    exact ⟨Expr.fits_of_length left (by omega), Expr.fits_of_length right (by omega)⟩
  | .unary op arg, h => by
    simp only [Expr.toBytes, List.length_append] at h
    exact Expr.fits_of_length arg (by omega)
  | .call callee args mode, h => by
    simp only [Expr.toBytes, List.length_append] at h
    exact ⟨Expr.fits_of_length callee (by omega), Expr.fitsList_of_length (by omega),
      Expr.listFits_of_length args (by omega)⟩
  | .member object property, h => by
    simp only [Expr.toBytes, List.length_append] at h
    exact ⟨Expr.fits_of_length object (by omega), fitsText_of_length (by omega)⟩
  | .closure params body isAsync, h => by
    simp only [Expr.toBytes, List.length_append] at h
    obtain ⟨hcount, hparams⟩ := fitsTexts_of_length params (by omega)
    exact ⟨hcount, hparams, Stmt.fitsList_of_length (by omega),
      Stmt.listFits_of_length body (by omega)⟩

theorem Expr.listFits_of_length :
    ∀ es : List Expr, (Expr.listToBytes es).length < 2 ^ 64 → Expr.listFits es
  | [], _ => trivial
  | e :: es, h => by
    rw [Expr.listToBytes, List.length_append] at h
    exact ⟨Expr.fits_of_length e (by omega), Expr.listFits_of_length es (by omega)⟩

theorem Stmt.fits_of_length : ∀ s : Stmt, s.toBytes.length < 2 ^ 64 → s.Fits
  | .cond test body none, h => by
    simp only [Stmt.toBytes, List.length_append] at h
    exact ⟨Expr.fits_of_length test (by omega), Stmt.fitsList_of_length (by omega),
      Stmt.listFits_of_length body (by omega)⟩
  | .cond test body (some orElse), h => by
    simp only [Stmt.toBytes, List.length_append, List.length_cons] at h
    exact ⟨Expr.fits_of_length test (by omega), Stmt.fitsList_of_length (by omega),
      Stmt.listFits_of_length body (by omega), Stmt.fitsList_of_length (by omega),
      Stmt.listFits_of_length orElse (by omega)⟩
  | .forLoop init test update body, h => by
    simp only [Stmt.toBytes, List.length_append] at h
    exact ⟨Stmt.fits_of_length init (by omega), Expr.fits_of_length test (by omega),
      Stmt.fits_of_length update (by omega), Stmt.fitsList_of_length (by omega),
      Stmt.listFits_of_length body (by omega)⟩
  | .whileLoop test body, h => by
    simp only [Stmt.toBytes, List.length_append] at h
    exact ⟨Expr.fits_of_length test (by omega), Stmt.fitsList_of_length (by omega),
      Stmt.listFits_of_length body (by omega)⟩
  | .doWhile body test, h => by
    simp only [Stmt.toBytes, List.length_append] at h
    exact ⟨Stmt.fitsList_of_length (by omega), Stmt.listFits_of_length body (by omega),
      Expr.fits_of_length test (by omega)⟩
  | .switch subject cases, h => by
    simp only [Stmt.toBytes, List.length_append] at h
    exact ⟨Expr.fits_of_length subject (by omega), Stmt.fitsList_of_length (by omega),
      Stmt.listFits_of_length cases (by omega)⟩
  | .case none body, h => by
    simp only [Stmt.toBytes, List.length_append, List.length_cons] at h
    exact ⟨Stmt.fitsList_of_length (by omega), Stmt.listFits_of_length body (by omega)⟩
  | .case (some test) body, h => by
    simp only [Stmt.toBytes, List.length_append, List.length_cons] at h
    exact ⟨Expr.fits_of_length test (by omega), Stmt.fitsList_of_length (by omega),
      Stmt.listFits_of_length body (by omega)⟩
  | .brk, _ => trivial
  | .bind name init, h => by
    simp only [Stmt.toBytes, List.length_append] at h
    exact ⟨fitsText_of_length (by omega), Expr.fits_of_length init (by omega)⟩
  | .assign target value, h => by
    simp only [Stmt.toBytes, List.length_append] at h
    exact ⟨Expr.fits_of_length target (by omega), Expr.fits_of_length value (by omega)⟩
  | .expr e, h => by
    simp only [Stmt.toBytes, List.length_append] at h
    exact Expr.fits_of_length e (by omega)
  | .ret e, h => by
    simp only [Stmt.toBytes, List.length_append] at h
    exact Expr.fits_of_length e (by omega)

theorem Stmt.listFits_of_length :
    ∀ ss : List Stmt, (Stmt.listToBytes ss).length < 2 ^ 64 → Stmt.listFits ss
  | [], _ => trivial
  | s :: ss, h => by
    rw [Stmt.listToBytes, List.length_append] at h
    exact ⟨Stmt.fits_of_length s (by omega), Stmt.listFits_of_length ss (by omega)⟩

end

/-! ## Section 3: Programs -/

/-- **Lengths fit if the number of bytes does.** -/
theorem Program.fits_of_length_toBytes {p : Program} (h : p.toBytes.length < 2 ^ 64) : p.Fits := by
  rw [Program.toBytes, List.length_append] at h
  exact ⟨Stmt.fitsList_of_length (by omega), Stmt.listFits_of_length p.body (by omega)⟩

theorem Program.decode_toBytes_of_fits {p : Program} (h : p.Fits) :
    Program.decode p.toBytes = .ok p := by
  obtain ⟨hlength, hfits⟩ := h
  have hbound : (Stmt.listToBytes p.body).length ≤ p.toBytes.length + 1 := by
    rw [Program.toBytes, List.length_append]
    omega
  have htake := Stmt.takes_list hlength (Stmt.takes_listToBytes p.body _ hfits hbound) []
  rw [List.append_nil] at htake
  have hbody : Program.takeBody p.toBytes = .ok (p.body, []) := htake
  rw [Program.decode_eq, hbody]
  rfl

/-- A program is decoded from its own bytes if their number fits sixty-four
    bits. -/
theorem Program.decode_toBytes {p : Program} (h : p.toBytes.length < 2 ^ 64) :
    Program.decode p.toBytes = .ok p :=
  Program.decode_toBytes_of_fits (Program.fits_of_length_toBytes h)

end BlockFlow
