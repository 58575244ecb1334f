import BlockFlow.Proofs.Wire.RoundTrip

/-! # More bytes change nothing

    A parser looks at bytes from left to right and stops. What it makes of
    some bytes it also makes of the same bytes with more behind them, unless
    it ran out of bytes.

    - `Persists p q` says this of two parsers, of which `q` sees more bytes
      than `p`. They are two because the bound on nesting grows with the
      bytes: a parser that runs into its bound reports the end of the bytes,
      so a larger bound is one more thing that can only help.
    - `Persists.bind` puts parsers in a row, and the layouts follow without
      looking at bytes again.
    - What is written and then cut is never mistaken for something else:
      whatever were made of the beginning, other than running out, would also
      be made of the whole, and that is known (`Persists.cut`). -/

namespace BlockFlow

namespace Wire

/-! ## Section 1: Parsers that persist -/

/-- **Persistence**: what `p` makes of bytes, if it does not run out of them,
    `q` makes of the same bytes with more behind them. -/
def Persists {α : Type} (p q : Parser α) : Prop :=
  ∀ bytes more, p bytes ≠ .error .endOfBytes →
    q (bytes ++ more) = (p bytes).map fun (a, rest) => (a, rest ++ more)

namespace Persists

variable {α β : Type} {p q : Parser α}

/-- Nothing is claimed of a parser that always runs out of bytes. -/
theorem of_endOfBytes (q : Parser α) : Persists (throw .endOfBytes) q := by
  intro bytes more h
  exact absurd rfl h

theorem error (e : WireError) : Persists (throw e : Parser α) (throw e) := by
  intro bytes more _
  rfl

theorem value (a : α) : Persists (return a : Parser α) (return a) := by
  intro bytes more _
  rfl

/-- Parsers in a row persist if each of them does. -/
theorem bind {f g : α → Parser β} (hp : Persists p q) (hf : ∀ a, Persists (f a) (g a)) :
    Persists (p >>= f) (q >>= g) := by
  intro bytes more h
  change (p bytes >>= fun r => f r.1 r.2) ≠ _ at h
  show (q (bytes ++ more) >>= fun r => g r.1 r.2) = (p bytes >>= fun r => f r.1 r.2).map _
  cases hresult : p bytes with
  | error e =>
    -- The row ends here, and not for want of bytes.
    rw [hresult] at h
    have hne : p bytes ≠ .error .endOfBytes := by
      rw [hresult]
      exact fun he => h (by rw [he]; rfl)
    rw [hp bytes more hne, hresult]
    rfl
  | ok r =>
    obtain ⟨a, rest⟩ := r
    rw [hresult] at h
    have hne : p bytes ≠ .error .endOfBytes := by
      rw [hresult]
      nofun
    rw [hp bytes more hne, hresult]
    exact hf a rest more h

/-- Making something of a value persists. -/
theorem bind_return {f : α → β} (hp : Persists p q) :
    Persists (do let a ← p; return f a) (do let a ← q; return f a) :=
  hp.bind fun a => value (f a)

/-- **A row of bytes that is cut** leaves the parser without bytes: nothing
    else can come out, since it would come out of the whole row, too. -/
theorem cut {bytes front back : Bytes} {a : α} (hp : Persists p q) (htake : Takes q bytes a)
    (hsplit : front ++ back = bytes) (hback : back ≠ []) : p front = .error .endOfBytes := by
  by_contra hne
  have hwhole := htake []
  rw [List.append_nil, ← hsplit, hp front back hne] at hwhole
  cases hresult : p front with
  | error e =>
    rw [hresult] at hwhole
    cases hwhole
  | ok r =>
    -- What stands behind the cut would be left over.
    rw [hresult] at hwhole
    have hrest : r.2 ++ back = [] := congrArg Prod.snd (Except.ok.inj hwhole)
    exact hback (List.append_eq_nil_iff.mp hrest).2

end Persists

/-! ## Section 2: The parts of the format -/

theorem persists_byte : Persists takeByte takeByte := by
  intro bytes more h
  cases bytes with
  | nil => exact absurd rfl h
  | cons b bytes => rfl

theorem persists_bytes (count : Nat) : Persists (takeBytes count) (takeBytes count) := by
  intro bytes more h
  by_cases hcount : count ≤ bytes.length
  · have hmore : count ≤ (bytes ++ more).length := by
      rw [List.length_append]
      omega
    rw [takeBytes, takeBytes, if_pos hcount, if_pos hmore, List.take_append_of_le_length hcount,
      List.drop_append_of_le_length hcount]
    rfl
  · rw [takeBytes, if_neg hcount] at h
    exact absurd rfl h

theorem persists_varint (lastMax count : Nat) :
    Persists (takeVarint lastMax count) (takeVarint lastMax count) := by
  induction count with
  | zero => exact .error .badVarint
  | succ count ih =>
    rw [takeVarint]
    refine persists_byte.bind fun b => ?_
    split
    · split
      · exact .error .badVarint
      · exact .value b.toNat
    · exact ih.bind_return

theorem persists_index : Persists takeIndex takeIndex := persists_varint 15 5

theorem persists_nat : Persists takeNat takeNat := persists_varint 1 10

theorem persists_int : Persists takeInt takeInt :=
  persists_nat.bind_return

theorem persists_flag : Persists takeFlag takeFlag := by
  refine persists_byte.bind fun b => ?_
  split
  · exact .value false
  · split
    · exact .value true
    · exact .error .badBool

theorem persists_text : Persists takeText takeText := by
  refine persists_nat.bind fun count => (persists_bytes count).bind fun bytes => ?_
  split
  · next s _ => exact .value s
  · exact .error .badText

section parts

variable {α : Type} {p q : Parser α}

theorem persists_option (h : Persists p q) : Persists (takeOption p) (takeOption q) := by
  refine persists_byte.bind fun b => ?_
  split
  · exact .value none
  · split
    · exact h.bind_return
    · exact .error .badOption

theorem persists_items (h : Persists p q) (count : Nat) :
    Persists (takeItems p count) (takeItems q count) := by
  induction count with
  | zero => exact .value []
  | succ count ih => exact h.bind fun first => ih.bind_return

theorem persists_list (h : Persists p q) : Persists (takeList p) (takeList q) :=
  persists_nat.bind (persists_items h)

theorem persists_oneOf (all : List α) : Persists (takeOneOf all) (takeOneOf all) := by
  refine persists_index.bind fun n => ?_
  cases all[n]? with
  | some a => exact .value a
  | none => exact .error .badVariant

end parts

end Wire

open Wire

/-! ## Section 3: Expressions and statements -/

theorem Value.persists_take : Persists Value.take Value.take := by
  refine persists_index.bind fun n => ?_
  match n with
  | 0 => exact .value Value.null
  | 1 => exact persists_int.bind_return
  | 2 => exact (persists_bytes 8).bind_return
  | 3 => exact persists_text.bind_return
  | 4 => exact persists_flag.bind_return
  | n + 5 => exact .error .badVariant

-- The cases are the variants in the order of their numbers, and the parts of
-- each in the order of the bytes.
mutual

/-- Taking an expression persists under every larger bound. -/
theorem Expr.persists_take :
    ∀ {bound bound' : Nat}, bound ≤ bound' → Persists (Expr.take bound) (Expr.take bound')
  | 0, bound', _ => by
    rw [Expr.take]
    exact .of_endOfBytes _
  | bound + 1, bound' + 1, h => by
    have hexpr := Expr.persists_take (Nat.le_of_succ_le_succ h)
    have hstmts := persists_list (Stmt.persists_take (Nat.le_of_succ_le_succ h))
    rw [Expr.take, Expr.take]
    refine persists_index.bind fun n => ?_
    match n with
    | 0 => exact Value.persists_take.bind_return
    | 1 => exact persists_text.bind_return
    | 2 =>
      exact (persists_oneOf BinaryOp.all).bind fun op => hexpr.bind fun left =>
        hexpr.bind_return
    | 3 => exact (persists_oneOf UnaryOp.all).bind fun op => hexpr.bind_return
    | 4 =>
      exact hexpr.bind fun callee => (persists_list hexpr).bind fun args =>
        (persists_oneOf CallMode.all).bind_return
    | 5 => exact hexpr.bind fun object => persists_text.bind_return
    | 6 =>
      exact (persists_list persists_text).bind fun params => hstmts.bind fun body =>
        persists_flag.bind_return
    | n + 7 => exact .error .badVariant

/-- Taking a statement persists under every larger bound. -/
theorem Stmt.persists_take :
    ∀ {bound bound' : Nat}, bound ≤ bound' → Persists (Stmt.take bound) (Stmt.take bound')
  | 0, bound', _ => by
    rw [Stmt.take]
    exact .of_endOfBytes _
  | bound + 1, bound' + 1, h => by
    have hexpr := Expr.persists_take (Nat.le_of_succ_le_succ h)
    have hstmt := Stmt.persists_take (Nat.le_of_succ_le_succ h)
    have hstmts := persists_list hstmt
    rw [Stmt.take, Stmt.take]
    refine persists_index.bind fun n => ?_
    match n with
    | 0 =>
      exact hexpr.bind fun test => hstmts.bind fun body =>
        (persists_option hstmts).bind_return
    | 1 =>
      exact hstmt.bind fun init => hexpr.bind fun test => hstmt.bind fun update =>
        hstmts.bind_return
    | 2 => exact hexpr.bind fun test => hstmts.bind_return
    | 3 => exact hstmts.bind fun body => hexpr.bind_return
    | 4 => exact hexpr.bind fun subject => hstmts.bind_return
    | 5 => exact (persists_option hexpr).bind fun test => hstmts.bind_return
    | 6 => exact .value Stmt.brk
    | 7 => exact persists_text.bind fun name => hexpr.bind_return
    | 8 => exact hexpr.bind fun target => hexpr.bind_return
    | 9 => exact hexpr.bind_return
    | 10 => exact hexpr.bind_return
    | n + 11 => exact .error .badVariant

end

/-! ## Section 4: Programs -/

/-- The statements of a program, and the bytes behind it. -/
def Program.takeBody (bytes : Bytes) : Except WireError (List Stmt × Bytes) :=
  takeList (Stmt.take (bytes.length + 1)) bytes

theorem Program.decode_eq (bytes : Bytes) :
    Program.decode bytes =
      ((Program.takeBody bytes).map fun r => Program.mk r.1).mapError .wire := by
  rw [Program.decode, Program.ofBytes, Program.takeBody]
  cases takeList (Stmt.take (bytes.length + 1)) bytes <;> rfl

/-- The bytes of a program bound its nesting less tightly the more there are. -/
theorem Program.persists_takeBody (bytes more : Bytes) :
    Persists (takeList (Stmt.take (bytes.length + 1)))
      (takeList (Stmt.take ((bytes ++ more).length + 1))) := by
  refine persists_list (Stmt.persists_take ?_)
  rw [List.length_append]
  omega

theorem Program.decode_append {bytes more : Bytes}
    (h : Program.takeBody bytes ≠ .error .endOfBytes) :
    Program.decode (bytes ++ more) = Program.decode bytes := by
  have hmore : Program.takeBody (bytes ++ more) = _ :=
    Program.persists_takeBody bytes more bytes more h
  rw [Program.decode_eq, Program.decode_eq, hmore]
  change (Except.map _ ((Program.takeBody bytes).map _)).mapError _ = _
  cases Program.takeBody bytes <;> rfl

/-- The beginning of a program's bytes runs out of bytes. -/
theorem Program.takeBody_cut {p : Program} (hfits : p.Fits) {front back : Bytes}
    (hsplit : front ++ back = p.toBytes) (hback : back ≠ []) :
    Program.takeBody front = .error .endOfBytes := by
  have hbound : (Stmt.listToBytes p.body).length ≤ (front ++ back).length + 1 := by
    rw [hsplit, Program.toBytes, List.length_append]
    omega
  have htake := Stmt.takes_list hfits.1 (Stmt.takes_listToBytes p.body _ hfits.2 hbound)
  exact (Program.persists_takeBody front back).cut htake hsplit hback

/-- **Decoding is stable and never mistakes a cut program.** What was decoded
    from some bytes is decoded from them whatever follows, and so is every
    error but the end of the bytes. The bytes of a program that end too early,
    wherever that is, always give the end of the bytes. -/
theorem Program.decode_append_eq_and_decode_cut (bytes more : Bytes) :
    (∀ p, Program.decode bytes = .ok p → Program.decode (bytes ++ more) = .ok p) ∧
    (∀ error, Program.decode bytes = .error error → error ≠ .wire .endOfBytes →
      Program.decode (bytes ++ more) = .error error) ∧
    (∀ p : Program, p.Fits → bytes <+: p.toBytes → bytes ≠ p.toBytes →
      Program.decode bytes = .error (.wire .endOfBytes)) ∧
    (CodecError.wire .endOfBytes).message =
      "codec error: postcard: Hit the end of buffer, expected more data" := by
  have hcut : Program.takeBody bytes = .error .endOfBytes →
      Program.decode bytes = .error (.wire .endOfBytes) := by
    intro h
    rw [Program.decode_eq, h]
    rfl
  refine ⟨fun p h => ?_, fun error h hne => ?_, fun p hfits hprefix hne => ?_, rfl⟩
  · rw [← h]
    refine Program.decode_append fun hend => ?_
    rw [hcut hend] at h
    cases h
  · rw [← h]
    refine Program.decode_append fun hend => ?_
    rw [hcut hend] at h
    exact hne (Except.error.inj h).symm
  · obtain ⟨back, hsplit⟩ := hprefix
    refine hcut (Program.takeBody_cut hfits hsplit fun hback => hne ?_)
    rw [← hsplit, hback, List.append_nil]

theorem Program.decode_append_eq_and_decode_cut_in_float :
    let p : Program := ⟨[.ret (.literal (.float ⟨0x7FF8000000000001⟩))]⟩
    let bytes : Bytes := [1, 10, 0, 2, 1, 0, 0, 0, 0, 0, 0xF8, 0x7F]
    (Program.decode bytes = .ok p ∧ Program.decode (bytes ++ [0xFF]) = .ok p) ∧
    (Program.decode [1, 11] = .error (.wire .badVariant) ∧
      Program.decode ([1, 11] ++ bytes) = .error (.wire .badVariant)) ∧
    (p.Fits ∧ [1, 10, 0, 2, 1, 0] <+: p.toBytes ∧
      Program.decode [1, 10, 0, 2, 1, 0] = .error (.wire .endOfBytes)) := by
  intro p bytes
  have hdecode : Program.decode bytes = .ok p := rfl
  have hvariant : Program.decode [1, 11] = .error (.wire .badVariant) := rfl
  have hbytes : p.toBytes = bytes := by
    simp [p, bytes, Program.toBytes, Stmt.listToBytes, Stmt.toBytes, Expr.toBytes, Value.toBytes,
      varint, littleEndian]
  have hfits : p.Fits := by
    simp only [p, Program.Fits, Stmt.listFits, Stmt.Fits, Expr.Fits, Value.Fits, FitsList]
    decide
  have hprefix : [1, 10, 0, 2, 1, 0] <+: p.toBytes := by
    rw [hbytes]
    exact ⟨[0, 0, 0, 0, 0xF8, 0x7F], rfl⟩
  have hshort : [1, 10, 0, 2, 1, 0] ≠ p.toBytes := by
    rw [hbytes]
    decide
  refine ⟨⟨hdecode, ?_⟩, ⟨hvariant, ?_⟩, hfits, hprefix, ?_⟩
  · exact (Program.decode_append_eq_and_decode_cut bytes [0xFF]).1 p hdecode
  · exact (Program.decode_append_eq_and_decode_cut [1, 11] bytes).2.1 _ hvariant (by simp)
  · exact (Program.decode_append_eq_and_decode_cut _ []).2.2.1 p hfits hprefix hshort

end BlockFlow
