import BlockFlow.Flow.Decode
import BlockFlow.Proofs.Lowering.Lowered
import Mathlib.Data.List.Basic

/-! # The flows that JSON stands for

    Decoding takes names apart: an opcode that begins with `storein2_` never
    stays an operation, a text that begins with `box_` never stays a text. So
    not every flow comes out of it. Those that do are called canonical here,
    and each block and each argument shows for itself whether it is.

    The two halves of the main theorem:

    - whatever is decoded is canonical, by induction on the JSON value
      (Section 4);
    - every canonical flow is decoded from the JSON that `Flow.toJson` writes
      for it, by induction on the flow (Section 5).

    The one number that decoding rounds is an integer of `2 ^ 63` or more, and
    the double it is rounded to is finite (`Double.isFinite_ofInt`). -/

namespace BlockFlow

/-! ## Section 1: Leads -/

/-- Whether a text begins with `lead`. -/
def Text.begins (lead s : String) : Bool := lead.toList.isPrefixOf s.toList

theorem Text.afterLead?_append (lead rest : String) :
    Text.afterLead? lead (lead ++ rest) = some rest := by
  have hrest : lead.toList.isPrefixOf? (lead ++ rest).toList = some rest.toList := by
    rw [List.isPrefixOf?_eq_some_iff_append_eq, String.toList_append]
  rw [Text.afterLead?, hrest, Option.map_some, String.ofList_toList]

theorem Text.isSome_afterLead? (lead s : String) :
    (Text.afterLead? lead s).isSome = Text.begins lead s := by
  rw [Text.afterLead?, Option.isSome_map, List.isSome_isPrefixOf?_eq_isPrefixOf, Text.begins]

theorem Text.afterLead?_eq_none_iff {lead s : String} :
    Text.afterLead? lead s = none ↔ Text.begins lead s = false := by
  rw [← Text.isSome_afterLead?, Option.isSome_eq_false_iff, Option.isNone_iff_eq_none]

/-! ## Section 2: Canonical flows -/

/-- An operation whose opcode carries no name. -/
def Head.isCanonical : Head → Bool
  | .op opcode => !Text.begins storeLead opcode && !Text.begins performLead opcode
  | .store _ | .perform _ => true

/-- A literal: not the empty slot, not a text that stands for something else,
    and a number that JSON can write. -/
def Value.isCanonical : Value → Bool
  | .null => false
  | .integer _ | .bool _ => true
  | .float x => x.isFinite
  | .string s => !Text.begins Arg.boolLead s && !Text.begins Arg.boxLead s

mutual

/-- All literals in an argument are canonical. -/
def Arg.isCanonical : Arg → Bool
  | .null | .box _ => true
  | .literal v => v.isCanonical
  | .apply _ args => Arg.listIsCanonical args

/-- All literals in arguments are canonical. -/
def Arg.listIsCanonical : List Arg → Bool
  | [] => true
  | arg :: args => arg.isCanonical && Arg.listIsCanonical args

end

mutual

/-- All heads and literals in a block are canonical. -/
def Block.isCanonical : Block → Bool
  | ⟨head, args, body, orElse⟩ =>
    head.isCanonical && Arg.listIsCanonical args &&
      Flow.innerIsCanonical body && Flow.innerIsCanonical orElse

/-- All heads and literals in a flow are canonical. -/
def Flow.isCanonical : Flow → Bool
  | [] => true
  | block :: blocks => block.isCanonical && Flow.isCanonical blocks

/-- All heads and literals in an inner flow are canonical, if it is there. -/
def Flow.innerIsCanonical : Option Flow → Bool
  | none => true
  | some flow => Flow.isCanonical flow

end

/-! ### Flows as JSON

    Every slot is written, an empty one as `null`. -/

/-- A value as a bare JSON scalar. -/
def Value.toScalar : Value → Json
  | .null => .null
  | .integer n => .number (.ofInt64 n)
  | .float x => .ofDouble x
  | .string s => .string s
  | .bool b => .bool b

mutual

/-- An argument as JSON. -/
def Arg.toJson : Arg → Json
  | .null => .null
  | .literal v => v.toScalar
  | .box name => .string (boxLead ++ name)
  | .apply opcode args => .list [.string opcode, .list (Arg.listToJson args)]

/-- Arguments as JSON. -/
def Arg.listToJson : List Arg → List Json
  | [] => []
  | arg :: args => arg.toJson :: Arg.listToJson args

end

mutual

/-- A block as JSON. -/
def Block.toJson : Block → Json
  | ⟨head, args, body, orElse⟩ =>
    .list [.string head.opcode, .list (Arg.listToJson args),
      Flow.innerToJson body, Flow.innerToJson orElse]

/-- The blocks of a flow as JSON. -/
def Flow.toItems : Flow → List Json
  | [] => []
  | block :: blocks => block.toJson :: Flow.toItems blocks

/-- An inner flow as JSON. -/
def Flow.innerToJson : Option Flow → Json
  | none => .null
  | some flow => .list (Flow.toItems flow)

end

/-- A flow as JSON. -/
def Flow.toJson (flow : Flow) : Json := .list flow.toItems

/-! ## Section 3: Scalars and opcodes -/

theorem Double.roundDiv_le (num den : Nat) : roundDiv num den ≤ num / den + 1 := by
  rw [roundDiv]
  split
  · omega
  · split <;> omega

/-- What stays of a count after its shift has at most fifty-three bits. -/
theorem Double.div_two_pow_shift_lt (count : Nat) :
    count / Nat.pow 2 (count.log2 - 52) < 2 * hiddenBit := by
  have hbits : 2 * hiddenBit = 2 ^ 53 := by decide
  rw [hbits, Nat.pow_eq, Nat.div_lt_iff_lt_mul (Nat.two_pow_pos _), ← Nat.pow_add]
  have hlog : count < 2 ^ (count.log2 + 1) := Nat.lt_log2_self
  have hpow : 2 ^ (count.log2 + 1) ≤ 2 ^ (53 + (count.log2 - 52)) :=
    Nat.pow_le_pow_right (by decide) (by omega)
  omega

/-- Rounding adds at most one to what stays, so the exponent field is at most
    two above the shift. -/
theorem Double.nearest_le (num den : Nat) {log : Nat}
    (h : (num * Nat.pow 2 1074 / den).log2 < log) :
    nearest num den ≤ (log - 53 + 2) * hiddenBit := by
  rw [nearest]
  generalize num * Nat.pow 2 1074 = scaled at h ⊢
  have hkept := div_two_pow_shift_lt (scaled / den)
  rw [Nat.div_div_eq_div_mul] at hkept
  have hround := roundDiv_le scaled (den * Nat.pow 2 ((scaled / den).log2 - 52))
  have hshift : ((scaled / den).log2 - 52) * hiddenBit ≤ (log - 53) * hiddenBit :=
    Nat.mul_le_mul_right _ (by omega)
  rw [Nat.add_mul]
  omega

theorem Double.log2_mul_two_pow_lt {n a k : Nat} (h : n < Nat.pow 2 a) (hpos : 0 < a + k) :
    (n * Nat.pow 2 k).log2 < a + k := by
  by_cases hzero : n * Nat.pow 2 k = 0
  · rwa [hzero, Nat.log2_zero]
  · rw [Nat.log2_lt hzero, Nat.pow_add]
    exact Nat.mul_lt_mul_of_pos_right h (Nat.two_pow_pos k)

/-- An integer below `2 ^ a` has an exponent field of at most `a` above that of
    one. -/
theorem Double.nearest_le_of_lt_two_pow {n a : Nat} (h : n < Nat.pow 2 a) :
    nearest n 1 ≤ (a + 1023) * hiddenBit := by
  have hfield : a + 1074 - 53 + 2 = a + 1023 := by omega
  have hpos : 0 < a + 1074 := by omega
  rw [← hfield]
  refine nearest_le n 1 ?_
  rw [Nat.div_one]
  -- The power of two is not to be computed.
  generalize 1074 = k at hpos ⊢
  exact log2_mul_two_pow_lt h hpos

/-- The integers of a JSON text are far below the largest finite double. -/
theorem Double.nearest_lt_infinity {n : Nat} (h : n < 0x10000000000000000) :
    nearest n 1 < infinity :=
  Nat.lt_of_le_of_lt (nearest_le_of_lt_two_pow (a := 64) h) (by decide)

theorem Double.magnitude_ofMagnitude (negative : Bool) {m : Nat} (h : m < signBit) :
    (ofMagnitude negative m).magnitude = m := by
  rw [magnitude, ofMagnitude, UInt64.toNat_ofNat']
  rw [signBit] at h ⊢
  cases negative <;> simp <;> omega

theorem Double.isFinite_ofInt {n : Int} (h : n.natAbs < 0x10000000000000000) :
    (ofInt n).isFinite = true := by
  have hlt := nearest_lt_infinity h
  have hfits : nearest n.natAbs 1 < signBit := Nat.lt_trans hlt (by decide)
  rw [isFinite, ofInt, magnitude_ofMagnitude _ hfits]
  exact decide_eq_true hlt

theorem Value.isCanonical_ofNumber (n : Number) : (Value.ofNumber n).isCanonical = true := by
  cases n with
  | whole n fits =>
    rw [Value.ofNumber]
    split
    · rfl
    · -- Only an integer from `2 ^ 63` on is left, and it is below `2 ^ 64`.
      exact Double.isFinite_ofInt (by omega)
  | real x finite => exact finite

theorem Head.isCanonical_ofOpcode (opcode : String) : (ofOpcode opcode).isCanonical = true := by
  rw [ofOpcode]
  split
  · rfl
  case _ hstore =>
    split
    · rfl
    case _ hperform =>
      rw [Text.afterLead?_eq_none_iff] at hstore hperform
      rw [isCanonical, hstore, hperform]
      rfl

theorem Arg.isCanonical_ofText (s : String) : (ofText s).isCanonical = true := by
  rw [ofText]
  split
  · rfl
  case _ hbool =>
    split
    · rfl
    case _ hbox =>
      rw [Text.afterLead?_eq_none_iff] at hbool hbox
      rw [isCanonical, Value.isCanonical, hbool, hbox]
      rfl

/-- A scalar other than a text becomes a canonical argument. -/
theorem Arg.isCanonical_ofValue {j : Json} {v : Value} (htext : ∀ s, j ≠ .string s)
    (h : Value.ofJson? j = some v) : (ofValue v).isCanonical = true := by
  cases j with
  | null =>
    cases h
    rfl
  | bool b =>
    cases h
    rfl
  | number n =>
    obtain rfl := Option.some.inj h
    have hnumber := Value.isCanonical_ofNumber n
    generalize Value.ofNumber n = v at hnumber ⊢
    cases v with
    | null => rfl
    | _ => exact hnumber
  | string s => exact absurd rfl (htext s)
  | list items => cases h
  | object members => cases h

theorem Head.ofOpcode_opcode {head : Head} (h : head.isCanonical = true) :
    ofOpcode head.opcode = head := by
  cases head with
  | op opcode =>
    rw [isCanonical, Bool.and_eq_true, Bool.not_eq_true', Bool.not_eq_true'] at h
    rw [Head.opcode, ofOpcode, Text.afterLead?_eq_none_iff.mpr h.1,
      Text.afterLead?_eq_none_iff.mpr h.2]
  | store name => rw [Head.opcode, ofOpcode, Text.afterLead?_append]
  | perform name =>
    -- The lead of stores is tried first, but the two differ in their first letter.
    have hstore : Text.afterLead? storeLead (performLead ++ name) = none := by
      rw [Text.afterLead?_eq_none_iff, Text.begins, String.toList_append]
      rfl
    rw [Head.opcode, ofOpcode, hstore, Text.afterLead?_append]

theorem Arg.ofJson_toScalar (owner : String) {v : Value} (h : v.isCanonical = true) :
    Arg.ofJson owner v.toScalar = .ok (.literal v) := by
  cases v with
  | null => cases h
  | integer n =>
    have hvalue : Value.ofNumber (.ofInt64 n) = .integer n := by
      have hlt : n.toInt < 0x8000000000000000 := n.toInt_lt
      rw [Number.ofInt64, Value.ofNumber, if_pos hlt, Int64.ofInt_toInt]
    show Except.ok (ofValue (Value.ofNumber (.ofInt64 n))) = _
    rw [hvalue]
    rfl
  | float x =>
    have hfinite : x.isFinite = true := h
    rw [Value.toScalar, Json.ofDouble, dif_pos hfinite]
    rfl
  | string s =>
    rw [Value.isCanonical, Bool.and_eq_true, Bool.not_eq_true', Bool.not_eq_true'] at h
    rw [Value.toScalar, Arg.ofJson, Arg.ofText, Text.afterLead?_eq_none_iff.mpr h.1,
      Text.afterLead?_eq_none_iff.mpr h.2]
  | bool b => rfl

theorem Arg.ofText_boxLead (name : String) : ofText (boxLead ++ name) = .box name := by
  -- Whatever the name is, the leads of truth values and boxes part at the third letter.
  have hbool : Text.afterLead? boolLead (boxLead ++ name) = none := by
    rw [Text.afterLead?_eq_none_iff, Text.begins, String.toList_append]
    rfl
  rw [ofText, hbool, Text.afterLead?_append]

/-! ## Section 4: What is decoded is canonical

    The cases are those of the decoder. A JSON value that it refuses has
    nothing to show, since nothing is decoded from it. -/

theorem Arg.isCanonical_of_decoded :
    (∀ owner j, ∀ arg, Arg.ofJson owner j = .ok arg → arg.isCanonical = true) ∧
    (∀ opcode slots, ∀ args,
      Arg.slotOfJson opcode slots = .ok args → Arg.listIsCanonical args = true) ∧
    (∀ owner items, ∀ args,
      Arg.listOfJson owner items = .ok args → Arg.listIsCanonical args = true) := by
  refine Arg.ofJson.mutual_induct _ _ _ ?text ?operation ?refusedList ?scalar ?refused
    ?noSlot ?emptySlot ?slot ?refusedSlot ?nil ?cons
  case text =>
    intro owner s arg h
    cases h
    exact isCanonical_ofText s
  case operation =>
    intro owner opcode slots ih arg h
    rw [Arg.ofJson] at h
    obtain ⟨args, hargs, rfl⟩ := exists_of_bind_return_eq_ok h
    exact ih args hargs
  case refusedList =>
    intro owner items hoperation arg h
    rw [Arg.ofJson] at h
    · cases h
    all_goals assumption
  case scalar =>
    intro owner found htext hoperation hlist v hvalue arg h
    rw [Arg.ofJson, hvalue] at h
    · cases h
      exact isCanonical_ofValue htext hvalue
    all_goals assumption
  case refused =>
    intro owner found htext hoperation hlist hvalue arg h
    rw [Arg.ofJson, hvalue] at h
    · cases h
    all_goals assumption
  case noSlot | nil =>
    intro _ args h
    cases h
    rfl
  case emptySlot =>
    intro opcode slots args h
    cases h
    rfl
  case slot =>
    intro opcode items slots ih args h
    rw [Arg.slotOfJson] at h
    exact ih args h
  case refusedSlot =>
    intro opcode found slots hnull hlist args h
    rw [Arg.slotOfJson] at h
    · cases h
    all_goals assumption
  case cons =>
    intro owner item items ihitem ihitems args h
    rw [Arg.listOfJson] at h
    obtain ⟨first, hfirst, htail⟩ := exists_of_bind_eq_ok h
    obtain ⟨rest, hrest, rfl⟩ := exists_of_bind_return_eq_ok htail
    rw [Arg.listIsCanonical, ihitem first hfirst, ihitems rest hrest, Bool.and_self]

theorem Flow.isCanonical_of_decoded :
    (∀ items, ∀ flow, Flow.ofItems items = .ok flow → Flow.isCanonical flow = true) ∧
    (∀ j, ∀ block, Block.ofJson j = .ok block → block.isCanonical = true) ∧
    (∀ slots, ∀ body orElse, Block.flowsOfJson slots = .ok (body, orElse) →
      Flow.innerIsCanonical body = true ∧ Flow.innerIsCanonical orElse = true) ∧
    (∀ j, ∀ inner, Flow.innerOfJson j = .ok inner → Flow.innerIsCanonical inner = true) := by
  refine Flow.ofItems.mutual_induct _ _ _ _ ?noOpcode ?block ?badOpcode ?notABlock
    ?none ?some ?refused ?nil ?cons ?both ?bodyOnly ?neither
  case noOpcode =>
    intro block h
    cases h
  case block =>
    intro opcode slots ih block h
    rw [Block.ofJson] at h
    -- Arguments and inner flows are read from the same slots, one after the other.
    obtain ⟨args, hargs, htail⟩ := exists_of_bind_eq_ok h
    obtain ⟨⟨body, orElse⟩, hflows, rfl⟩ := exists_of_bind_return_eq_ok htail
    obtain ⟨hbody, horElse⟩ := ih body orElse hflows
    rw [Block.isCanonical, Head.isCanonical_ofOpcode,
      Arg.isCanonical_of_decoded.2.1 opcode slots args hargs, hbody, horElse]
    rfl
  case badOpcode =>
    intro found slots hopcode block h
    rw [Block.ofJson] at h
    · cases h
    · exact hopcode
  case notABlock =>
    intro found hempty hblock hlist block h
    rw [Block.ofJson] at h
    · cases h
    all_goals assumption
  case none | nil =>
    intro _ h
    cases h
    rfl
  case some =>
    intro items ih inner h
    rw [Flow.innerOfJson] at h
    obtain ⟨flow, hflow, rfl⟩ := exists_of_bind_return_eq_ok h
    exact ih flow hflow
  case refused =>
    intro found hnull hlist inner h
    rw [Flow.innerOfJson] at h
    · cases h
    all_goals assumption
  case cons =>
    intro item items ihitem ihitems flow h
    rw [Flow.ofItems] at h
    obtain ⟨first, hfirst, htail⟩ := exists_of_bind_eq_ok h
    obtain ⟨rest, hrest, rfl⟩ := exists_of_bind_return_eq_ok htail
    rw [Flow.isCanonical, ihitem first hfirst, ihitems rest hrest, Bool.and_self]
  case both =>
    intro slot bodySlot elseSlot slots ihbody ihelse body orElse h
    rw [Block.flowsOfJson] at h
    obtain ⟨body', hbody, htail⟩ := exists_of_bind_eq_ok h
    obtain ⟨orElse', helse, heq⟩ := exists_of_bind_return_eq_ok htail
    cases heq
    exact ⟨ihbody body hbody, ihelse orElse helse⟩
  case bodyOnly =>
    intro slot bodySlot ihbody body orElse h
    rw [Block.flowsOfJson] at h
    obtain ⟨body', hbody, heq⟩ := exists_of_bind_return_eq_ok h
    cases heq
    exact ⟨ihbody body hbody, rfl⟩
  case neither =>
    intro slots hboth hbody body orElse h
    rw [Block.flowsOfJson] at h
    · cases h
      exact ⟨rfl, rfl⟩
    all_goals assumption

theorem Flow.isCanonical_of_ofJson {j : Json} {flow : Flow} (h : Flow.ofJson j = .ok flow) :
    Flow.isCanonical flow = true := by
  cases j with
  | null =>
    cases h
    rfl
  | list items => exact Flow.isCanonical_of_decoded.1 items flow h
  | bool | number | string | object => cases h

/-! ## Section 5: Canonical flows are read back -/

mutual

theorem Arg.ofJson_toJson (owner : String) :
    ∀ {arg : Arg}, arg.isCanonical = true → Arg.ofJson owner arg.toJson = .ok arg
  | .null, _ => rfl
  | .literal _, h => Arg.ofJson_toScalar owner h
  | .box name, _ => by rw [Arg.toJson, Arg.ofJson, Arg.ofText_boxLead]
  | .apply opcode args, h => by
    rw [Arg.toJson, Arg.ofJson, Arg.slotOfJson, Arg.listOfJson_listToJson opcode h]
    rfl

theorem Arg.listOfJson_listToJson (owner : String) :
    ∀ {args : List Arg}, Arg.listIsCanonical args = true →
      Arg.listOfJson owner (Arg.listToJson args) = .ok args
  | [], _ => rfl
  | arg :: args, h => by
    rw [Arg.listIsCanonical, Bool.and_eq_true] at h
    rw [Arg.listToJson, Arg.listOfJson, Arg.ofJson_toJson owner h.1,
      Arg.listOfJson_listToJson owner h.2]
    rfl

end

mutual

theorem Block.ofJson_toJson : ∀ {block : Block}, block.isCanonical = true →
    Block.ofJson block.toJson = .ok block
  | ⟨head, args, body, orElse⟩, h => by
    simp only [Block.isCanonical, Bool.and_eq_true] at h
    obtain ⟨⟨⟨hhead, hargs⟩, hbody⟩, horElse⟩ := h
    rw [Block.toJson, Block.ofJson, Arg.slotOfJson, Arg.listOfJson_listToJson head.opcode hargs,
      Block.flowsOfJson, Flow.innerOfJson_innerToJson hbody, Flow.innerOfJson_innerToJson horElse,
      Head.ofOpcode_opcode hhead]
    rfl

theorem Flow.ofItems_toItems : ∀ {flow : Flow}, Flow.isCanonical flow = true →
    Flow.ofItems (Flow.toItems flow) = .ok flow
  | [], _ => rfl
  | block :: blocks, h => by
    rw [Flow.isCanonical, Bool.and_eq_true] at h
    rw [Flow.toItems, Flow.ofItems, Block.ofJson_toJson h.1, Flow.ofItems_toItems h.2]
    rfl

theorem Flow.innerOfJson_innerToJson : ∀ {inner : Option Flow},
    Flow.innerIsCanonical inner = true → Flow.innerOfJson (Flow.innerToJson inner) = .ok inner
  -- A flow without blocks is a list, so it is not taken for a missing one.
  | none, _ => rfl
  | some flow, h => by
    rw [Flow.innerToJson, Flow.innerOfJson, Flow.ofItems_toItems h]
    rfl

end

/-- **The image of decoding**: whatever is decoded from JSON is canonical, and
    a canonical flow is decoded from the JSON that is written for it. -/
theorem Flow.isCanonical_of_ofJson_and_ofJson_toJson (flow : Flow) :
    (∀ j, Flow.ofJson j = .ok flow → flow.isCanonical = true) ∧
    (flow.isCanonical = true → Flow.ofJson flow.toJson = .ok flow) := by
  constructor
  · intro j h
    exact Flow.isCanonical_of_ofJson h
  · intro h
    exact Flow.ofItems_toItems h

/-- Names with underscores or without letters, a second flow without a first
    one, an empty flow, and numbers at the edges are all read back. Slots left
    out, `null` slots and anything behind the last slot decode as well, though
    they are not written that way. -/
theorem Flow.isCanonical_of_ofJson_and_ofJson_toJson_edges :
    let flow : Flow := [
      ⟨.perform "", [.null, .box "box_", .literal (.string "box")], none, some []⟩,
      ⟨.store "a_b", [.apply "box_x" [.literal (.float ⟨0x8000000000000000⟩)]],
        some [⟨.op "storein2", [.literal (.integer Int64.minValue)], some [], none⟩], none⟩]
    let slack : Json := .list [
      .list [.string "nameddo_"], .list [.string "if", .null, .null, .list [], .object []]]
    flow.isCanonical = true ∧ Flow.ofJson flow.toJson = .ok flow ∧
      Flow.ofJson slack = .ok [⟨.perform "", [], none, none⟩, ⟨.op "if", [], none, some []⟩] ∧
      Flow.isCanonical [⟨.perform "", [], none, none⟩, ⟨.op "if", [], none, some []⟩] = true := by
  intro flow slack
  have hcanonical : flow.isCanonical = true := by decide
  have hslack : Flow.ofJson slack =
      .ok [⟨.perform "", [], none, none⟩, ⟨.op "if", [], none, some []⟩] := by rfl
  exact ⟨hcanonical, (Flow.isCanonical_of_ofJson_and_ofJson_toJson flow).2 hcanonical, hslack,
    (Flow.isCanonical_of_ofJson_and_ofJson_toJson _).1 slack hslack⟩

end BlockFlow
