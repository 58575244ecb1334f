import BlockFlow.Program.Codec
import BlockFlow.Proofs.Wire.Parser

/-! # Programs survive the wire

    A program that is written as bytes is read back as it was, whatever bytes
    follow it. The only condition is that lengths fit sixty-four bits
    (`Program.Fits`).

    The parsers are given a bound on how deep they may nest. The induction
    carries the invariant that the bound is at least the number of bytes that
    are due: each level takes the number of its variant, so what is due inside
    is shorter (`exists_bound_inside`). -/

namespace BlockFlow

open Wire

/-! ## Section 1: Lengths that fit -/

/-- A text whose length fits sixty-four bits. -/
def Wire.FitsText (s : String) : Prop := s.utf8ByteSize < 2 ^ 64

/-- A list whose length fits sixty-four bits. -/
def Wire.FitsList {α : Type} (items : List α) : Prop := items.length < 2 ^ 64

/-- The text of a value fits. -/
def Value.Fits : Value → Prop
  | .string s => FitsText s
  | _ => True

mutual

/-- All texts and lists in an expression fit. -/
def Expr.Fits : Expr → Prop
  | .literal v => v.Fits
  | .ident name => FitsText name
  | .binary _ left right => left.Fits ∧ right.Fits
  | .unary _ arg => arg.Fits
  | .call callee args _ => callee.Fits ∧ FitsList args ∧ Expr.listFits args
  | .member object property => object.Fits ∧ FitsText property
  | .closure params body _ =>
    FitsList params ∧ (∀ name ∈ params, FitsText name) ∧ FitsList body ∧ Stmt.listFits body

/-- All texts and lists in expressions fit. -/
def Expr.listFits : List Expr → Prop
  | [] => True
  | e :: es => e.Fits ∧ Expr.listFits es

/-- All texts and lists in a statement fit. -/
def Stmt.Fits : Stmt → Prop
  | .cond test body none => test.Fits ∧ FitsList body ∧ Stmt.listFits body
  | .cond test body (some orElse) =>
    test.Fits ∧ FitsList body ∧ Stmt.listFits body ∧ FitsList orElse ∧ Stmt.listFits orElse
  | .forLoop init test update body =>
    init.Fits ∧ test.Fits ∧ update.Fits ∧ FitsList body ∧ Stmt.listFits body
  | .whileLoop test body => test.Fits ∧ FitsList body ∧ Stmt.listFits body
  | .doWhile body test => FitsList body ∧ Stmt.listFits body ∧ test.Fits
  | .switch subject cases => subject.Fits ∧ FitsList cases ∧ Stmt.listFits cases
  | .case none body => FitsList body ∧ Stmt.listFits body
  | .case (some test) body => test.Fits ∧ FitsList body ∧ Stmt.listFits body
  | .brk => True
  | .bind name init => FitsText name ∧ init.Fits
  | .assign target value => target.Fits ∧ value.Fits
  | .expr e => e.Fits
  | .ret e => e.Fits

/-- All texts and lists in statements fit. -/
def Stmt.listFits : List Stmt → Prop
  | [] => True
  | s :: ss => s.Fits ∧ Stmt.listFits ss

end

/-- All texts and lists in a program fit. -/
def Program.Fits (p : Program) : Prop := FitsList p.body ∧ Stmt.listFits p.body

/-! ## Section 2: Values and operators -/

/-- Every bit pattern of a double is taken back. -/
theorem takes_double (x : Double) :
    Takes (do let bytes ← takeBytes 8; return Value.float ⟨UInt64.ofNat (ofLittleEndian bytes)⟩)
      (littleEndian 8 x.bits.toNat) (.float x) := by
  have htake := (takes_bytes (littleEndian 8 x.bits.toNat)).bind_return
    (f := fun bytes => Value.float ⟨UInt64.ofNat (ofLittleEndian bytes)⟩)
  have hfits : x.bits.toNat % 256 ^ 8 = x.bits.toNat := Nat.mod_eq_of_lt x.bits.toNat_lt
  rw [length_littleEndian, ofLittleEndian_littleEndian, hfits, UInt64.ofNat_toNat] at htake
  exact htake

theorem BinaryOp.takes_toBytes (op : BinaryOp) : Takes (takeOneOf BinaryOp.all) op.toBytes op :=
  takes_oneOf (by decide) (by cases op <;> decide)

theorem UnaryOp.takes_toBytes (op : UnaryOp) : Takes (takeOneOf UnaryOp.all) op.toBytes op :=
  takes_oneOf (by decide) (by cases op <;> decide)

theorem CallMode.takes_toBytes (mode : CallMode) :
    Takes (takeOneOf CallMode.all) mode.toBytes mode :=
  takes_oneOf (by decide) (by cases mode <;> decide)

theorem Value.takes_toBytes {v : Value} (h : v.Fits) : Takes Value.take v.toBytes v := by
  cases v with
  | null => exact takes_unit_variant 0 (by decide) rfl
  | integer n => exact takes_variant 1 (by decide) (takes_int n).bind_return
  | float x => exact takes_variant 2 (by decide) (takes_double x)
  | string s => exact takes_variant 3 (by decide) (takes_text h).bind_return
  | bool b => exact takes_variant 4 (by decide) (takes_flag b).bind_return

/-! ## Section 3: Expressions and statements -/

theorem Expr.listToBytes_eq_flatMap (es : List Expr) :
    Expr.listToBytes es = es.flatMap Expr.toBytes := by
  induction es with
  | nil => rfl
  | cons e es ih => rw [Expr.listToBytes, ih, List.flatMap_cons]

theorem Stmt.listToBytes_eq_flatMap (ss : List Stmt) :
    Stmt.listToBytes ss = ss.flatMap Stmt.toBytes := by
  induction ss with
  | nil => rfl
  | cons s ss ih => rw [Stmt.listToBytes, ih, List.flatMap_cons]

theorem Expr.takes_list {p : Parser Expr} {es : List Expr} (hlength : FitsList es)
    (h : ∀ e ∈ es, Takes p e.toBytes e) :
    Takes (takeList p) (varint es.length ++ Expr.listToBytes es) es := by
  rw [Expr.listToBytes_eq_flatMap]
  exact Wire.takes_list hlength h

theorem Stmt.takes_list {p : Parser Stmt} {ss : List Stmt} (hlength : FitsList ss)
    (h : ∀ s ∈ ss, Takes p s.toBytes s) :
    Takes (takeList p) (varint ss.length ++ Stmt.listToBytes ss) ss := by
  rw [Stmt.listToBytes_eq_flatMap]
  exact Wire.takes_list hlength h

theorem varint_ne_nil (n : Nat) : varint n ≠ [] := by
  rw [varint]
  split
  · exact List.cons_ne_nil _ _
  · exact List.cons_ne_nil _ _

/-- The number of a variant is paid for by one level of the bound. -/
theorem exists_bound_inside {n bound : Nat} {bytes : Bytes}
    (h : (varint n ++ bytes).length ≤ bound) :
    ∃ inside, bound = inside + 1 ∧ bytes.length ≤ inside := by
  have hpos : 0 < (varint n).length := List.length_pos_iff.mpr (varint_ne_nil n)
  rw [List.length_append] at h
  exact ⟨bound - 1, by omega, by omega⟩

-- The parts of a variant follow its number, so a case puts the parsers of the
-- parts in a row; their bounds come from the bytes that are due inside.
mutual

/-- An expression is taken back under a bound that its bytes fit into. -/
theorem Expr.takes_toBytes :
    ∀ (e : Expr) (bound : Nat), e.Fits → e.toBytes.length ≤ bound →
      Takes (Expr.take bound) e.toBytes e
  | .literal v, bound, hfits, hbound => by
    simp only [Expr.toBytes] at hbound ⊢
    obtain ⟨inside, rfl, -⟩ := exists_bound_inside hbound
    exact takes_variant 0 (by decide) (Value.takes_toBytes hfits).bind_return
  | .ident name, bound, hfits, hbound => by
    simp only [Expr.toBytes] at hbound ⊢
    obtain ⟨inside, rfl, -⟩ := exists_bound_inside hbound
    exact takes_variant 1 (by decide) (takes_text hfits).bind_return
  | .binary op left right, bound, hfits, hbound => by
    simp only [Expr.toBytes, List.append_assoc] at hbound ⊢
    obtain ⟨inside, rfl, hinside⟩ := exists_bound_inside hbound
    simp only [List.length_append] at hinside
    have hleft := Expr.takes_toBytes left inside hfits.1 (by omega)
    have hright := Expr.takes_toBytes right inside hfits.2 (by omega)
    exact takes_variant 2 (by decide) (op.takes_toBytes.bind (hleft.bind hright.bind_return))
  | .unary op arg, bound, hfits, hbound => by
    simp only [Expr.toBytes, List.append_assoc] at hbound ⊢
    obtain ⟨inside, rfl, hinside⟩ := exists_bound_inside hbound
    simp only [List.length_append] at hinside
    have harg := Expr.takes_toBytes arg inside hfits (by omega)
    exact takes_variant 3 (by decide) (op.takes_toBytes.bind harg.bind_return)
  | .call callee args mode, bound, ⟨hfcallee, hlength, hfargs⟩, hbound => by
    simp only [Expr.toBytes, List.append_assoc] at hbound ⊢
    obtain ⟨inside, rfl, hinside⟩ := exists_bound_inside hbound
    simp only [List.length_append] at hinside
    have hcallee := Expr.takes_toBytes callee inside hfcallee (by omega)
    have hargs := Expr.takes_list hlength (Expr.takes_listToBytes args inside hfargs (by omega))
    rw [← List.append_assoc (varint args.length)]
    exact takes_variant 4 (by decide)
      (hcallee.bind (hargs.bind mode.takes_toBytes.bind_return))
  | .member object property, bound, ⟨hfobject, hfproperty⟩, hbound => by
    simp only [Expr.toBytes, List.append_assoc] at hbound ⊢
    obtain ⟨inside, rfl, hinside⟩ := exists_bound_inside hbound
    simp only [List.length_append] at hinside
    have hobject := Expr.takes_toBytes object inside hfobject (by omega)
    exact takes_variant 5 (by decide) (hobject.bind (takes_text hfproperty).bind_return)
  | .closure params body isAsync, bound, ⟨hcount, hfparams, hlength, hfbody⟩, hbound => by
    simp only [Expr.toBytes, List.append_assoc] at hbound ⊢
    obtain ⟨inside, rfl, hinside⟩ := exists_bound_inside hbound
    simp only [List.length_append] at hinside
    have hparams : Takes (takeList takeText)
        (varint params.length ++ params.flatMap textBytes) params :=
      Wire.takes_list hcount fun name hname => takes_text (hfparams name hname)
    have hbody := Stmt.takes_list hlength (Stmt.takes_listToBytes body inside hfbody (by omega))
    rw [← List.append_assoc (varint params.length), ← List.append_assoc (varint body.length)]
    exact takes_variant 6 (by decide)
      (hparams.bind (hbody.bind (takes_flag isAsync).bind_return))

/-- Each of the expressions of a list is taken back. -/
theorem Expr.takes_listToBytes :
    ∀ (es : List Expr) (bound : Nat), Expr.listFits es → (Expr.listToBytes es).length ≤ bound →
      ∀ e ∈ es, Takes (Expr.take bound) e.toBytes e
  | [], _, _, _ => List.forall_mem_nil _
  | first :: es, bound, ⟨hffirst, hfrest⟩, hbound => by
    rw [Expr.listToBytes, List.length_append] at hbound
    have hfirst := Expr.takes_toBytes first bound hffirst (by omega)
    have hrest := Expr.takes_listToBytes es bound hfrest (by omega)
    exact List.forall_mem_cons.mpr ⟨hfirst, hrest⟩

/-- A statement is taken back under a bound that its bytes fit into. -/
theorem Stmt.takes_toBytes :
    ∀ (s : Stmt) (bound : Nat), s.Fits → s.toBytes.length ≤ bound →
      Takes (Stmt.take bound) s.toBytes s
  | .cond test body none, bound, ⟨hftest, hlength, hfbody⟩, hbound => by
    simp only [Stmt.toBytes, List.append_assoc] at hbound ⊢
    obtain ⟨inside, rfl, hinside⟩ := exists_bound_inside hbound
    simp only [List.length_append] at hinside
    have htest := Expr.takes_toBytes test inside hftest (by omega)
    have hbody := Stmt.takes_list hlength (Stmt.takes_listToBytes body inside hfbody (by omega))
    have horElse := takes_none (takeList (Stmt.take inside))
    rw [← List.append_assoc (varint body.length)]
    exact takes_variant 0 (by decide) (htest.bind (hbody.bind horElse.bind_return))
  | .cond test body (some orElse), bound, ⟨hftest, hlength, hfbody, hcount, hforElse⟩, hbound => by
    -- The mark of the alternative is one more byte, which the bound also covers.
    simp only [Stmt.toBytes, List.append_assoc, List.cons_append] at hbound ⊢
    obtain ⟨inside, rfl, hinside⟩ := exists_bound_inside hbound
    simp only [List.length_append, List.length_cons] at hinside
    have htest := Expr.takes_toBytes test inside hftest (by omega)
    have hbody := Stmt.takes_list hlength (Stmt.takes_listToBytes body inside hfbody (by omega))
    have horElse := takes_some
      (Stmt.takes_list hcount (Stmt.takes_listToBytes orElse inside hforElse (by omega)))
    rw [← List.append_assoc (varint body.length)]
    exact takes_variant 0 (by decide) (htest.bind (hbody.bind horElse.bind_return))
  | .forLoop init test update body, bound, ⟨hfinit, hftest, hfupdate, hlength, hfbody⟩, hbound => by
    simp only [Stmt.toBytes, List.append_assoc] at hbound ⊢
    obtain ⟨inside, rfl, hinside⟩ := exists_bound_inside hbound
    simp only [List.length_append] at hinside
    have hinit := Stmt.takes_toBytes init inside hfinit (by omega)
    have htest := Expr.takes_toBytes test inside hftest (by omega)
    have hupdate := Stmt.takes_toBytes update inside hfupdate (by omega)
    have hbody := Stmt.takes_list hlength (Stmt.takes_listToBytes body inside hfbody (by omega))
    exact takes_variant 1 (by decide)
      (hinit.bind (htest.bind (hupdate.bind hbody.bind_return)))
  | .whileLoop test body, bound, ⟨hftest, hlength, hfbody⟩, hbound => by
    simp only [Stmt.toBytes, List.append_assoc] at hbound ⊢
    obtain ⟨inside, rfl, hinside⟩ := exists_bound_inside hbound
    simp only [List.length_append] at hinside
    have htest := Expr.takes_toBytes test inside hftest (by omega)
    have hbody := Stmt.takes_list hlength (Stmt.takes_listToBytes body inside hfbody (by omega))
    exact takes_variant 2 (by decide) (htest.bind hbody.bind_return)
  | .doWhile body test, bound, ⟨hlength, hfbody, hftest⟩, hbound => by
    simp only [Stmt.toBytes, List.append_assoc] at hbound ⊢
    obtain ⟨inside, rfl, hinside⟩ := exists_bound_inside hbound
    simp only [List.length_append] at hinside
    have hbody := Stmt.takes_list hlength (Stmt.takes_listToBytes body inside hfbody (by omega))
    have htest := Expr.takes_toBytes test inside hftest (by omega)
    rw [← List.append_assoc (varint body.length)]
    exact takes_variant 3 (by decide) (hbody.bind htest.bind_return)
  | .switch subject cases, bound, ⟨hfsubject, hlength, hfcases⟩, hbound => by
    simp only [Stmt.toBytes, List.append_assoc] at hbound ⊢
    obtain ⟨inside, rfl, hinside⟩ := exists_bound_inside hbound
    simp only [List.length_append] at hinside
    have hsubject := Expr.takes_toBytes subject inside hfsubject (by omega)
    have hcases := Stmt.takes_list hlength (Stmt.takes_listToBytes cases inside hfcases (by omega))
    exact takes_variant 4 (by decide) (hsubject.bind hcases.bind_return)
  | .case none body, bound, ⟨hlength, hfbody⟩, hbound => by
    simp only [Stmt.toBytes, List.append_assoc, List.cons_append] at hbound ⊢
    obtain ⟨inside, rfl, hinside⟩ := exists_bound_inside hbound
    simp only [List.length_append, List.length_cons] at hinside
    have htest := takes_none (Expr.take inside)
    have hbody := Stmt.takes_list hlength (Stmt.takes_listToBytes body inside hfbody (by omega))
    exact takes_variant 5 (by decide) (htest.bind hbody.bind_return)
  | .case (some test) body, bound, ⟨hftest, hlength, hfbody⟩, hbound => by
    simp only [Stmt.toBytes, List.append_assoc, List.cons_append] at hbound ⊢
    obtain ⟨inside, rfl, hinside⟩ := exists_bound_inside hbound
    simp only [List.length_append, List.length_cons] at hinside
    have htest := takes_some (Expr.takes_toBytes test inside hftest (by omega))
    have hbody := Stmt.takes_list hlength (Stmt.takes_listToBytes body inside hfbody (by omega))
    exact takes_variant 5 (by decide) (htest.bind hbody.bind_return)
  | .brk, bound, _, hbound => by
    simp only [Stmt.toBytes] at hbound ⊢
    rw [← List.append_nil (varint 6)] at hbound
    obtain ⟨inside, rfl, -⟩ := exists_bound_inside hbound
    exact takes_unit_variant 6 (by decide) rfl
  | .bind name init, bound, ⟨hfname, hfinit⟩, hbound => by
    simp only [Stmt.toBytes, List.append_assoc] at hbound ⊢
    obtain ⟨inside, rfl, hinside⟩ := exists_bound_inside hbound
    simp only [List.length_append] at hinside
    have hinit := Expr.takes_toBytes init inside hfinit (by omega)
    exact takes_variant 7 (by decide) ((takes_text hfname).bind hinit.bind_return)
  | .assign target value, bound, ⟨hftarget, hfvalue⟩, hbound => by
    simp only [Stmt.toBytes, List.append_assoc] at hbound ⊢
    obtain ⟨inside, rfl, hinside⟩ := exists_bound_inside hbound
    simp only [List.length_append] at hinside
    have htarget := Expr.takes_toBytes target inside hftarget (by omega)
    have hvalue := Expr.takes_toBytes value inside hfvalue (by omega)
    exact takes_variant 8 (by decide) (htarget.bind hvalue.bind_return)
  | .expr e, bound, hfits, hbound => by
    simp only [Stmt.toBytes] at hbound ⊢
    obtain ⟨inside, rfl, hinside⟩ := exists_bound_inside hbound
    have he := Expr.takes_toBytes e inside hfits hinside
    exact takes_variant 9 (by decide) he.bind_return
  | .ret e, bound, hfits, hbound => by
    simp only [Stmt.toBytes] at hbound ⊢
    obtain ⟨inside, rfl, hinside⟩ := exists_bound_inside hbound
    have he := Expr.takes_toBytes e inside hfits hinside
    exact takes_variant 10 (by decide) he.bind_return

/-- Each of the statements of a list is taken back. -/
theorem Stmt.takes_listToBytes :
    ∀ (ss : List Stmt) (bound : Nat), Stmt.listFits ss → (Stmt.listToBytes ss).length ≤ bound →
      ∀ s ∈ ss, Takes (Stmt.take bound) s.toBytes s
  | [], _, _, _ => List.forall_mem_nil _
  | first :: ss, bound, ⟨hffirst, hfrest⟩, hbound => by
    rw [Stmt.listToBytes, List.length_append] at hbound
    have hfirst := Stmt.takes_toBytes first bound hffirst (by omega)
    have hrest := Stmt.takes_listToBytes ss bound hfrest (by omega)
    exact List.forall_mem_cons.mpr ⟨hfirst, hrest⟩

end

/-! ## Section 4: Programs -/

/-- **Round trip of the bytes**: a program whose lengths fit is decoded from
    its own bytes, whatever bytes follow. -/
theorem Program.decode_toBytes_append (p : Program) (h : p.Fits) (rest : Bytes) :
    Program.decode (p.toBytes ++ rest) = .ok p := by
  obtain ⟨hlength, hfits⟩ := h
  -- The bound counts all bytes, those of the program and those behind it.
  have hbound : (Stmt.listToBytes p.body).length ≤ (p.toBytes ++ rest).length + 1 := by
    rw [Program.toBytes, List.length_append, List.length_append]
    omega
  have htake := Stmt.takes_list hlength (Stmt.takes_listToBytes p.body _ hfits hbound)
  have hread : Program.ofBytes (p.toBytes ++ rest) = .ok p := by
    show (takeList (Stmt.take ((p.toBytes ++ rest).length + 1)) (p.toBytes ++ rest) >>=
      fun r => pure (Program.mk r.1)) = _
    rw [Program.toBytes] at htake ⊢
    rw [htake rest]
    rfl
  rw [Program.decode, hread]
  rfl

theorem Program.decode_toBytes_append_nested :
    let p : Program := ⟨[.forLoop (.bind "é" (.literal (.integer Int64.minValue)))
      (.call (.ident "♪") [.closure ["x"] [.ret (.literal (.float ⟨0x7FF8000000000001⟩))] true]
        .suspend)
      .brk [.cond (.literal .null) [] (some [.case none []])]]⟩
    p.Fits ∧ Program.decode (p.toBytes ++ [0xFF, 0x80]) = .ok p := by
  intro p
  have hfits : p.Fits := by
    simp only [p, Program.Fits, Stmt.listFits, Stmt.Fits, Expr.listFits, Expr.Fits, Value.Fits,
      FitsText, FitsList]
    decide
  exact ⟨hfits, Program.decode_toBytes_append p hfits _⟩

end BlockFlow
