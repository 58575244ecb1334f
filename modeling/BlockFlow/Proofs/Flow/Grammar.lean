import BlockFlow.Flow.Decode
import BlockFlow.Proofs.Lowering.Reached
import Mathlib.Data.List.Nodup

/-! # The grammar of flows

    Decoding a flow is a walk through a JSON value. What is looked at, and
    what it has to be, depends on where it stands, and there are four places:
    a flow, a block, the arguments of an operation, and a single argument.

    - `Place.fault?` says what is wrong with a value in its place, and
      `Place.pieces` which pieces of it are looked at next. `Place.FaultAt`
      gives each fault below a value its address. One fault comes before
      another if its address does, in the order of a dictionary.
    - `Place.Admits` is the grammar: what may stand in a place.
    - `Place.Respells` changes how a value is written, at any depth, where the
      grammar leaves a choice.
    - **Main statement** (`Flow.ofJson_iff_admits`): exactly what the grammar
      admits is decoded, the error is that of the first fault, and respelling
      makes no difference.

    All four decoders obey one equation (`Place.failure?_eq`): they fail by the
    fault of the value itself, or else as the first of its pieces that fails.
    The induction is on the size of the value, once for all places. -/

namespace BlockFlow

/-! ## Section 1: Places and faults -/

/-- What a JSON value is to be read as. -/
inductive Place where
  /-- A flow. -/
  | flow
  /-- A block. -/
  | block
  /-- The arguments of an operation. -/
  | args (opcode : String)
  /-- An argument of an operation. -/
  | arg (owner : String)

/-- A piece of a JSON value: where it stands among the items, and what it is to
    be read as. -/
structure Piece where
  /-- Its position. -/
  index : Nat
  /-- What it is to be read as. -/
  place : Place
  /-- The piece itself. -/
  value : Json

namespace Place

/-- What is wrong with a value itself, whatever its pieces are. -/
def fault? : Place → Json → Option FlowError
  | .flow, .null | .flow, .list _ => none
  | .flow, found => some (.notAFlow found)
  | .block, .list [] => some .missingOpcode
  | .block, .list (.string _ :: _) => none
  | .block, .list (found :: _) => some (.opcodeNotString found)
  | .block, found => some (.notABlock found)
  | .args _, .null | .args _, .list _ => none
  | .args opcode, found => some (.argsNotList opcode found)
  | .arg _, .null | .arg _, .bool _ | .arg _, .number _ | .arg _, .string _ => none
  | .arg _, .list (.string _ :: _) => none
  | .arg owner, found => some (.badArg owner found)

/-- All items as pieces of one kind. -/
def row (place : Place) (items : List Json) : List Piece :=
  items.zipIdx.map fun (item, i) => ⟨i, place, item⟩

/-- The slots behind an opcode as pieces, as far as both go. -/
def slots (places : List (Nat × Place)) (items : List Json) : List Piece :=
  List.zipWith (fun (i, place) item => ⟨i, place, item⟩) places items

/-- The pieces of a value that are looked at, in order. -/
def pieces : Place → Json → List Piece
  | .flow, .list items => row .block items
  | .block, .list (.string opcode :: items) =>
    slots [(1, .args opcode), (2, .flow), (3, .flow)] items
  | .args opcode, .list items => row (.arg opcode) items
  | .arg _, .list (.string opcode :: items) => slots [(1, .args opcode)] items
  | _, _ => []

/-- **Faults and their addresses**: an address has the positions to follow from
    the value down to the fault. -/
inductive FaultAt : Place → Json → List Nat → FlowError → Prop where
  /-- The value itself is at fault. -/
  | here {place : Place} {j : Json} {e : FlowError} (h : place.fault? j = some e) :
      FaultAt place j [] e
  /-- Something in a piece of it is. -/
  | inside {place : Place} {j : Json} {piece : Piece} {address : List Nat} {e : FlowError}
      (hpiece : piece ∈ place.pieces j) (h : FaultAt piece.place piece.value address e) :
      FaultAt place j (piece.index :: address) e

/-- The order in which addresses are met: that of a dictionary, a value before
    its pieces. -/
def Before (address address' : List Nat) : Prop := List.Lex (· < ·) address address'

/-- **The first fault** of a value: no other one comes before it. -/
def FirstFault (place : Place) (j : Json) (e : FlowError) : Prop :=
  ∃ address, place.FaultAt j address e ∧
    ∀ address' e', place.FaultAt j address' e' → ¬ Before address' address

/-- **The grammar of flows**: the values that may stand in a place. -/
inductive Admits : Place → Json → Prop where
  /-- There need not be a flow, -/
  | noFlow : Admits .flow .null
  /-- and if there is one, it is a row of blocks. -/
  | flow {items : List Json} (h : ∀ item ∈ items, Admits .block item) :
      Admits .flow (.list items)
  /-- A block has an opcode, and then up to three slots that count. -/
  | block {opcode : String} {slots : List Json}
      (hargs : ∀ args, slots[0]? = some args → Admits (.args opcode) args)
      (hbody : ∀ body, slots[1]? = some body → Admits .flow body)
      (helse : ∀ orElse, slots[2]? = some orElse → Admits .flow orElse) :
      Admits .block (.list (.string opcode :: slots))
  /-- There need not be arguments, -/
  | noArgs {opcode : String} : Admits (.args opcode) .null
  /-- and if there are, they are a row. -/
  | args {opcode : String} {items : List Json} (h : ∀ item ∈ items, Admits (.arg opcode) item) :
      Admits (.args opcode) (.list items)
  /-- An argument is an empty slot, -/
  | null {owner : String} : Admits (.arg owner) .null
  /-- a truth value, -/
  | bool {owner : String} {b : Bool} : Admits (.arg owner) (.bool b)
  /-- a number, -/
  | number {owner : String} {n : Number} : Admits (.arg owner) (.number n)
  /-- a text, -/
  | string {owner : String} {s : String} : Admits (.arg owner) (.string s)
  /-- or an opcode with one slot that counts. -/
  | apply {owner opcode : String} {slots : List Json}
      (hargs : ∀ args, slots[0]? = some args → Admits (.args opcode) args) :
      Admits (.arg owner) (.list (.string opcode :: slots))

/-- **Another spelling** of a value in its place. -/
inductive Respells : Place → Json → Json → Prop where
  /-- Items behind the last slot of a block are left out. -/
  | cutBlock {opcode : String} {slots : List Json} :
      Respells .block (.list (.string opcode :: slots)) (.list (.string opcode :: slots.take 3))
  /-- Items behind the slot of an argument are left out. -/
  | cutArg {owner opcode : String} {slots : List Json} :
      Respells (.arg owner) (.list (.string opcode :: slots))
        (.list (.string opcode :: slots.take 1))
  /-- One more slot of a block is written, as an empty one. -/
  | padBlock {opcode : String} {slots : List Json} :
      Respells .block (.list (.string opcode :: slots))
        (.list (.string opcode :: (slots ++ [.null])))
  /-- One more slot of an argument is written, as an empty one. -/
  | padArg {owner opcode : String} {slots : List Json} :
      Respells (.arg owner) (.list (.string opcode :: slots))
        (.list (.string opcode :: (slots ++ [.null])))
  /-- No arguments are written as an empty row of them. -/
  | noArgs {opcode : String} : Respells (.args opcode) .null (.list [])
  /-- A piece is spelled in another way. -/
  | inside {place : Place} {items : List Json} {piece : Piece} {value : Json}
      (hpiece : piece ∈ place.pieces (.list items)) (h : Respells piece.place piece.value value) :
      Respells place (.list items) (.list (items.set piece.index value))

/-! ## Section 2: Pieces -/

theorem mem_row {place : Place} {items : List Json} {piece : Piece} :
    piece ∈ row place items ↔ ∃ i item, items[i]? = some item ∧ piece = ⟨i, place, item⟩ := by
  simp only [row, List.mem_map, Prod.exists, List.mk_mem_zipIdx_iff_getElem?]
  constructor
  · rintro ⟨item, i, hitem, rfl⟩
    exact ⟨i, item, hitem, rfl⟩
  · rintro ⟨i, item, hitem, rfl⟩
    exact ⟨item, i, hitem, rfl⟩

theorem findSome?_row {α : Type} (place : Place) (items : List Json) (f : Place → Json → Option α) :
    (row place items).findSome? (fun piece => f piece.place piece.value) =
      items.findSome? (f place) := by
  have hfst : items.findSome? (f place) = (items.zipIdx.map Prod.fst).findSome? (f place) := by
    rw [List.zipIdx_map_fst]
  rw [hfst, row, List.findSome?_map, List.findSome?_map]
  rfl

/-- A slot of a block that counts is one of three. -/
theorem mem_blockSlots {opcode : String} {items : List Json} {piece : Piece}
    (h : piece ∈ slots [(1, .args opcode), (2, .flow), (3, .flow)] items) :
    (∃ args more, items = args :: more ∧ piece = ⟨1, .args opcode, args⟩) ∨
    (∃ args body more, items = args :: body :: more ∧ piece = ⟨2, .flow, body⟩) ∨
    ∃ args body orElse more,
      items = args :: body :: orElse :: more ∧ piece = ⟨3, .flow, orElse⟩ := by
  rcases items with _ | ⟨args, _ | ⟨body, _ | ⟨orElse, more⟩⟩⟩ <;> simp_all [slots]

/-- Only one slot of an argument counts. -/
theorem mem_argSlot {opcode : String} {items : List Json} {piece : Piece}
    (h : piece ∈ slots [(1, .args opcode)] items) :
    ∃ args more, items = args :: more ∧ piece = ⟨1, .args opcode, args⟩ := by
  cases items <;> simp_all [slots]

/-- Pieces stand in the order of their positions. -/
theorem pairwise_pieces (place : Place) (j : Json) :
    (place.pieces j).Pairwise fun piece other => piece.index < other.index := by
  have hrow : ∀ (place : Place) (items : List Json),
      (row place items).Pairwise fun piece other => piece.index < other.index := by
    intro place items
    rw [row, List.pairwise_map, List.pairwise_iff_getElem]
    intro i i' hi hi' hlt
    simpa using hlt
  unfold pieces
  split
  · exact hrow _ _
  · next opcode items =>
    rcases items with _ | ⟨args, _ | ⟨body, _ | ⟨orElse, more⟩⟩⟩ <;> simp [slots]
  · exact hrow _ _
  · next opcode items => cases items <;> simp [slots]
  · exact .nil

/-- A piece stands at its position among the items of the value. -/
theorem getElem?_of_mem_pieces {place : Place} {j : Json} {piece : Piece}
    (h : piece ∈ place.pieces j) :
    ∃ items, j = .list items ∧ items[piece.index]? = some piece.value := by
  have hrow : ∀ {place : Place} {items : List Json}, piece ∈ row place items →
      items[piece.index]? = some piece.value := by
    intro place items h
    obtain ⟨i, item, hitem, rfl⟩ := mem_row.mp h
    exact hitem
  unfold pieces at h
  split at h
  · exact ⟨_, rfl, hrow h⟩
  · rcases mem_blockSlots h with ⟨_, _, rfl, rfl⟩ | ⟨_, _, _, rfl, rfl⟩ | ⟨_, _, _, _, rfl, rfl⟩ <;>
      exact ⟨_, rfl, rfl⟩
  · exact ⟨_, rfl, hrow h⟩
  · obtain ⟨_, _, rfl, rfl⟩ := mem_argSlot h
    exact ⟨_, rfl, rfl⟩
  · simp at h

/-- A piece is smaller than the value it belongs to. -/
theorem sizeOf_lt_of_mem_pieces {place : Place} {j : Json} {piece : Piece}
    (h : piece ∈ place.pieces j) : sizeOf piece.value < sizeOf j := by
  obtain ⟨items, rfl, hpiece⟩ := getElem?_of_mem_pieces h
  have hlt := List.sizeOf_lt_of_mem (List.mem_of_getElem? hpiece)
  rw [Json.list.sizeOf_spec]
  omega

/-! ## Section 3: Failures of the decoders -/

/-- How the decoder for a place fails. -/
def failure? : Place → Json → Option FlowError
  | .flow, j => BlockFlow.failure? (Flow.ofJson j)
  | .block, j => BlockFlow.failure? (Block.ofJson j)
  | .args opcode, j => BlockFlow.failure? (Arg.slotOfJson opcode [j])
  | .arg owner, j => BlockFlow.failure? (Arg.ofJson owner j)

theorem failure?_ofItems (items : List Json) :
    BlockFlow.failure? (Flow.ofItems items) = items.findSome? (failure? .block) := by
  induction items with
  | nil => rfl
  | cons item items ih =>
    rw [Flow.ofItems, List.findSome?_cons, ← ih, failure?]
    cases Block.ofJson item with
    | error e => rfl
    | ok first => cases Flow.ofItems items <;> rfl

theorem failure?_listOfJson (opcode : String) (items : List Json) :
    BlockFlow.failure? (Arg.listOfJson opcode items) =
      items.findSome? (failure? (.arg opcode)) := by
  induction items with
  | nil => rfl
  | cons item items ih =>
    rw [Arg.listOfJson, List.findSome?_cons, ← ih, failure?]
    cases Arg.ofJson opcode item with
    | error e => rfl
    | ok first => cases Arg.listOfJson opcode items <;> rfl

/-- A slot that is missing counts as `null`, and the slots behind it are not
    looked at. -/
theorem slotOfJson_eq (opcode : String) (items : List Json) :
    Arg.slotOfJson opcode items = Arg.slotOfJson opcode [items.getD 0 .null] := by
  rcases items with _ | ⟨_ | _ | _ | _ | _ | _, more⟩ <;> rfl

theorem argOfJson_eq (owner opcode : String) (items : List Json) :
    Arg.ofJson owner (.list (.string opcode :: items)) = (do
      let args ← Arg.slotOfJson opcode [items.getD 0 .null]
      return .apply opcode args) := by
  rw [Arg.ofJson, slotOfJson_eq]

/-- A block by its three slots. -/
theorem blockOfJson_eq (opcode : String) (items : List Json) :
    Block.ofJson (.list (.string opcode :: items)) = (do
      let args ← Arg.slotOfJson opcode [items.getD 0 .null]
      let body ← Flow.innerOfJson (items.getD 1 .null)
      let orElse ← Flow.innerOfJson (items.getD 2 .null)
      return ⟨.ofOpcode opcode, args, body, orElse⟩) := by
  rw [Block.ofJson, slotOfJson_eq]
  congr 1
  funext args
  rcases items with _ | ⟨_, _ | ⟨body, _ | ⟨orElse, more⟩⟩⟩
  · rfl
  · rfl
  · show (Block.flowsOfJson [_, body] >>= _) = (Flow.innerOfJson body >>= _)
    rw [Block.flowsOfJson]
    cases Flow.innerOfJson body <;> rfl
  · show (Block.flowsOfJson (_ :: body :: orElse :: more) >>= _) = (Flow.innerOfJson body >>= _)
    rw [Block.flowsOfJson]
    cases Flow.innerOfJson body with
    | error e => rfl
    | ok body =>
      show (Flow.innerOfJson orElse >>= _ >>= _) = (Flow.innerOfJson orElse >>= _)
      cases Flow.innerOfJson orElse <;> rfl

/-- A flow inside a block fails as any other flow does. -/
theorem failure?_innerOfJson (j : Json) :
    BlockFlow.failure? (Flow.innerOfJson j) = failure? .flow j := by
  cases j with
  | list items =>
    rw [Flow.innerOfJson, failure?, Flow.ofJson]
    cases Flow.ofItems items <;> rfl
  | null | bool | number | string | object => rfl

/-- The slots of a block fail in the order in which they stand. -/
theorem failure?_block (opcode : String) (items : List Json) :
    failure? .block (.list (.string opcode :: items)) =
      (slots [(1, .args opcode), (2, .flow), (3, .flow)] items).findSome? fun piece =>
        failure? piece.place piece.value := by
  have hslots : failure? .block (.list (.string opcode :: items)) =
      (failure? (.args opcode) (items.getD 0 .null)).or
        ((failure? .flow (items.getD 1 .null)).or (failure? .flow (items.getD 2 .null))) := by
    rw [← failure?_innerOfJson, ← failure?_innerOfJson]
    simp only [failure?, blockOfJson_eq]
    cases Arg.slotOfJson opcode [items.getD 0 .null] with
    | error e => rfl
    | ok args =>
      cases Flow.innerOfJson (items.getD 1 .null) with
      | error e => rfl
      | ok body => cases Flow.innerOfJson (items.getD 2 .null) <;> rfl
  -- A missing slot is `null` on the left and left out on the right; neither fails.
  have hargs : failure? (.args opcode) .null = none := rfl
  have hflow : failure? .flow .null = none := rfl
  rw [hslots]
  rcases items with _ | ⟨args, _ | ⟨body, _ | ⟨orElse, more⟩⟩⟩
  · rfl
  · cases h : failure? (.args opcode) args <;> simp [slots, h, hflow]
  · cases h : failure? (.args opcode) args <;> cases h' : failure? .flow body <;>
      simp [slots, h, h', hflow]
  · cases h : failure? (.args opcode) args <;> cases h' : failure? .flow body <;>
      cases h'' : failure? .flow orElse <;> simp [slots, h, h', h'']

theorem failure?_arg (owner opcode : String) (items : List Json) :
    failure? (.arg owner) (.list (.string opcode :: items)) =
      (slots [(1, .args opcode)] items).findSome? fun piece =>
        failure? piece.place piece.value := by
  simp only [failure?, argOfJson_eq]
  cases items with
  | nil => rfl
  | cons args more =>
    simp only [slots, List.zipWith_cons_cons, List.zipWith_nil_left, List.findSome?_singleton,
      List.getD_cons_zero]
    cases Arg.slotOfJson opcode [args] <;> rfl

/-- **One equation for all decoders**: a value fails by its own fault, or else
    as the first of its pieces that fails. -/
theorem failure?_eq (place : Place) (j : Json) :
    place.failure? j =
      (place.fault? j).or ((place.pieces j).findSome? fun piece =>
        piece.place.failure? piece.value) := by
  cases place with
  | flow =>
    cases j with
    | list items =>
      rw [pieces, findSome?_row, ← failure?_ofItems]
      rfl
    | null | bool | number | string | object => rfl
  | block =>
    cases j with
    | list items =>
      cases items with
      | nil => rfl
      | cons first items =>
        cases first with
        | string opcode => exact failure?_block opcode items
        | null | bool | number | list | object => rfl
    | null | bool | number | string | object => rfl
  | args opcode =>
    cases j with
    | list items =>
      rw [pieces, findSome?_row, ← failure?_listOfJson]
      rfl
    | null | bool | number | string | object => rfl
  | arg owner =>
    cases j with
    | list items =>
      cases items with
      | nil => rfl
      | cons first items =>
        cases first with
        | string opcode => exact failure?_arg owner opcode items
        | null | bool | number | list | object => rfl
    | null | bool | number | string | object => rfl

/-! ## Section 4: First faults -/

theorem not_before_nil (address : List Nat) : ¬ Before address [] := by
  intro h
  cases h

theorem before_cons_iff {i i' : Nat} {address address' : List Nat} :
    Before (i :: address) (i' :: address') ↔ i < i' ∨ i = i' ∧ Before address address' :=
  List.cons_lex_cons_iff

/-- Of two addresses, one comes first unless they are the same. -/
theorem before_or_eq_or_before (address address' : List Nat) :
    Before address address' ∨ address = address' ∨ Before address' address := by
  induction address generalizing address' with
  | nil =>
    cases address' with
    | nil => exact .inr (.inl rfl)
    | cons i' rest' => exact .inl .nil
  | cons i rest ih =>
    cases address' with
    | nil => exact .inr (.inr .nil)
    | cons i' rest' =>
      rcases Nat.lt_trichotomy i i' with hlt | rfl | hlt
      · exact .inl (.rel hlt)
      · rcases ih rest' with h | rfl | h
        · exact .inl (.cons h)
        · exact .inr (.inl rfl)
        · exact .inr (.inr (.cons h))
      · exact .inr (.inr (.rel hlt))

/-- There is at most one piece at a position. -/
theorem eq_of_mem_pieces {place : Place} {j : Json} {piece other : Piece}
    (h : piece ∈ place.pieces j) (h' : other ∈ place.pieces j)
    (hindex : piece.index = other.index) : piece = other := by
  have hnodup : ((place.pieces j).map Piece.index).Nodup :=
    List.pairwise_map.mpr ((place.pairwise_pieces j).imp Nat.ne_of_lt)
  exact List.inj_on_of_nodup_map hnodup h h' hindex

/-- An address has at most one fault. -/
theorem FaultAt.unique {place : Place} {j : Json} {address : List Nat} {e e' : FlowError}
    (h : place.FaultAt j address e) (h' : place.FaultAt j address e') : e = e' := by
  induction h with
  | here hfault =>
    cases h' with
    | here hfault' => exact Option.some.inj (hfault.symm.trans hfault')
  | @inside place j piece rest e hpiece h ih =>
    generalize haddress : piece.index :: rest = address at h'
    cases h' with
    | here hfault' => cases haddress
    | inside hpiece' h' =>
      obtain ⟨hindex, rfl⟩ := List.cons.inj haddress
      cases eq_of_mem_pieces hpiece hpiece' hindex
      exact ih h'

/-- What becomes of a value with certain faults: nothing fails if there are
    none, and else the first one counts. -/
def Answers (faults : List Nat → FlowError → Prop) : Option FlowError → Prop
  | none => ∀ address e, ¬ faults address e
  | some e => ∃ address, faults address e ∧
      ∀ address' e', faults address' e' → ¬ Before address' address

/-- The faults inside pieces. -/
def FaultInside (pieces : List Piece) (address : List Nat) (e : FlowError) : Prop :=
  ∃ piece ∈ pieces, ∃ rest, address = piece.index :: rest ∧
    piece.place.FaultAt piece.value rest e

/-- A value that is not at fault itself has the faults of its pieces. -/
theorem faultAt_eq_faultInside {place : Place} {j : Json} (hfault : place.fault? j = none) :
    place.FaultAt j = FaultInside (place.pieces j) := by
  funext address e
  apply propext
  constructor
  · intro h
    cases h with
    | here h =>
      rw [hfault] at h
      cases h
    | inside hpiece h => exact ⟨_, hpiece, _, rfl, h⟩
  · rintro ⟨piece, hpiece, rest, rfl, h⟩
    exact .inside hpiece h

/-- **Pieces one after another**: the first piece that fails has the first
    fault, since the positions of the others are higher. -/
theorem answers_findSome? {pieces : List Piece} {result : Piece → Option FlowError}
    (hsorted : pieces.Pairwise fun piece other => piece.index < other.index)
    (h : ∀ piece ∈ pieces, Answers (piece.place.FaultAt piece.value) (result piece)) :
    Answers (FaultInside pieces) (pieces.findSome? result) := by
  induction pieces with
  | nil =>
    rintro address e ⟨piece, hpiece, -⟩
    simp at hpiece
  | cons first pieces ih =>
    obtain ⟨hfirst, hsorted⟩ := List.pairwise_cons.mp hsorted
    obtain ⟨hanswers, hothers⟩ := List.forall_mem_cons.mp h
    have hrest := ih hsorted hothers
    rw [List.findSome?_cons]
    cases hresult : result first with
    | some e =>
      rw [hresult] at hanswers
      obtain ⟨address, hfault, hmin⟩ := hanswers
      refine ⟨first.index :: address, ⟨first, List.mem_cons_self, _, rfl, hfault⟩, ?_⟩
      rintro address' e' ⟨piece, hpiece, rest, rfl, hfault'⟩
      rw [before_cons_iff]
      rcases List.mem_cons.mp hpiece with rfl | hpiece
      · rintro (hlt | ⟨-, hbefore⟩)
        · exact Nat.lt_irrefl _ hlt
        · exact hmin _ _ hfault' hbefore
      · have hlt := hfirst piece hpiece
        omega
    | none =>
      rw [hresult] at hanswers
      -- The first piece has no faults, so those of the others are all there are.
      have hsame : FaultInside (first :: pieces) = FaultInside pieces := by
        funext address e
        apply propext
        constructor
        · rintro ⟨piece, hpiece, rest, rfl, hfault⟩
          rcases List.mem_cons.mp hpiece with rfl | hpiece
          · exact absurd hfault (hanswers rest e)
          · exact ⟨piece, hpiece, rest, rfl, hfault⟩
        · rintro ⟨piece, hpiece, rest, rfl, hfault⟩
          exact ⟨piece, List.mem_cons_of_mem _ hpiece, rest, rfl, hfault⟩
      rw [hsame]
      exact hrest

/-- **Decoders answer for the first fault**, in whatever place. -/
theorem answers_failure? (place : Place) (j : Json) :
    Answers (place.FaultAt j) (place.failure? j) := by
  rw [failure?_eq]
  cases hfault : place.fault? j with
  | some e => exact ⟨[], .here hfault, fun _ _ _ => not_before_nil _⟩
  | none =>
    rw [faultAt_eq_faultInside hfault]
    exact answers_findSome? (place.pairwise_pieces j) fun piece hpiece =>
      answers_failure? piece.place piece.value
termination_by sizeOf j
decreasing_by exact sizeOf_lt_of_mem_pieces hpiece

theorem FirstFault.unique {place : Place} {j : Json} {e e' : FlowError}
    (h : place.FirstFault j e) (h' : place.FirstFault j e') : e = e' := by
  obtain ⟨address, hfault, hmin⟩ := h
  obtain ⟨address', hfault', hmin'⟩ := h'
  rcases before_or_eq_or_before address address' with hbefore | rfl | hbefore
  · exact absurd hbefore (hmin' _ _ hfault)
  · exact hfault.unique hfault'
  · exact absurd hbefore (hmin _ _ hfault')

/-- A decoder fails exactly with the first fault. -/
theorem failure?_eq_some_iff {place : Place} {j : Json} {e : FlowError} :
    place.failure? j = some e ↔ place.FirstFault j e := by
  have hanswers := place.answers_failure? j
  constructor
  · intro h
    rw [h] at hanswers
    exact hanswers
  · intro h
    cases hfailure : place.failure? j with
    | none =>
      rw [hfailure] at hanswers
      obtain ⟨address, hfault, -⟩ := h
      exact absurd hfault (hanswers address e)
    | some e' =>
      rw [hfailure] at hanswers
      rw [FirstFault.unique h hanswers]

/-! ## Section 5: The grammar -/

section pieces

variable {holds : Place → Json → Prop}

theorem forall_row {place : Place} {items : List Json} :
    (∀ piece ∈ row place items, holds piece.place piece.value) ↔
      ∀ item ∈ items, holds place item := by
  constructor
  · intro h item hitem
    obtain ⟨i, hi⟩ := List.mem_iff_getElem?.mp hitem
    exact h ⟨i, place, item⟩ (mem_row.mpr ⟨i, item, hi, rfl⟩)
  · intro h piece hpiece
    obtain ⟨i, item, hitem, rfl⟩ := mem_row.mp hpiece
    exact h item (List.mem_of_getElem? hitem)

theorem forall_blockSlots {opcode : String} {items : List Json} :
    (∀ piece ∈ slots [(1, .args opcode), (2, .flow), (3, .flow)] items,
      holds piece.place piece.value) ↔
      (∀ args, items[0]? = some args → holds (.args opcode) args) ∧
      (∀ body, items[1]? = some body → holds .flow body) ∧
      ∀ orElse, items[2]? = some orElse → holds .flow orElse := by
  rcases items with _ | ⟨args, _ | ⟨body, _ | ⟨orElse, more⟩⟩⟩ <;> simp [slots]

theorem forall_argSlot {opcode : String} {items : List Json} :
    (∀ piece ∈ slots [(1, .args opcode)] items, holds piece.place piece.value) ↔
      ∀ args, items[0]? = some args → holds (.args opcode) args := by
  cases items <;> simp [slots]

end pieces

/-- The grammar piece by piece: no fault in a value itself, and none in its
    pieces. -/
theorem admits_iff {place : Place} {j : Json} :
    place.Admits j ↔
      place.fault? j = none ∧ ∀ piece ∈ place.pieces j, piece.place.Admits piece.value := by
  constructor
  · intro h
    cases h with
    | flow h => exact ⟨rfl, forall_row.mpr h⟩
    | block hargs hbody helse => exact ⟨rfl, forall_blockSlots.mpr ⟨hargs, hbody, helse⟩⟩
    | args h => exact ⟨rfl, forall_row.mpr h⟩
    | apply hargs => exact ⟨rfl, forall_argSlot.mpr hargs⟩
    | noFlow | noArgs | null | bool | number | string => exact ⟨rfl, by simp [pieces]⟩
  · rintro ⟨hfault, hpieces⟩
    unfold fault? at hfault
    -- One case for each kind of value that is not at fault.
    split at hfault
    · exact .noFlow
    · exact .flow (forall_row.mp hpieces)
    · cases hfault
    · cases hfault
    · obtain ⟨hargs, hbody, helse⟩ := forall_blockSlots.mp hpieces
      exact .block hargs hbody helse
    · cases hfault
    · cases hfault
    · exact .noArgs
    · exact .args (forall_row.mp hpieces)
    · cases hfault
    · exact .null
    · exact .bool
    · exact .number
    · exact .string
    · exact .apply (forall_argSlot.mp hpieces)
    · cases hfault

/-- What the grammar admits has no faults. -/
theorem Admits.not_faultAt {place : Place} {j : Json} (hadmits : place.Admits j)
    {address : List Nat} {e : FlowError} : ¬ place.FaultAt j address e := by
  intro h
  induction h with
  | here hfault =>
    rw [(admits_iff.mp hadmits).1] at hfault
    cases hfault
  | inside hpiece h ih => exact ih ((admits_iff.mp hadmits).2 _ hpiece)

/-- What has no faults is admitted by the grammar. -/
theorem admits_of_not_faultAt {place : Place} {j : Json}
    (h : ∀ address e, ¬ place.FaultAt j address e) : place.Admits j := by
  rw [admits_iff]
  constructor
  · cases hfault : place.fault? j with
    | none => rfl
    | some e => exact absurd (.here hfault) (h [] e)
  · intro piece hpiece
    exact admits_of_not_faultAt fun address e hfault => h _ e (.inside hpiece hfault)
termination_by sizeOf j
decreasing_by exact sizeOf_lt_of_mem_pieces hpiece

theorem failure?_eq_none_iff {place : Place} {j : Json} :
    place.failure? j = none ↔ place.Admits j := by
  have hanswers := place.answers_failure? j
  constructor
  · intro h
    rw [h] at hanswers
    exact admits_of_not_faultAt hanswers
  · intro h
    cases hfailure : place.failure? j with
    | none => rfl
    | some e =>
      rw [hfailure] at hanswers
      obtain ⟨address, hfault, -⟩ := hanswers
      exact absurd hfault h.not_faultAt

/-! ## Section 6: Other spellings -/

/-- Two values that are decoded to the same in a place. -/
def Agree : Place → Json → Json → Prop
  | .flow, j, j' => Flow.ofJson j = Flow.ofJson j' ∧ Flow.innerOfJson j = Flow.innerOfJson j'
  | .block, j, j' => Block.ofJson j = Block.ofJson j'
  | .args opcode, j, j' => Arg.slotOfJson opcode [j] = Arg.slotOfJson opcode [j']
  | .arg owner, j, j' => Arg.ofJson owner j = Arg.ofJson owner j'

theorem ofItems_set {items : List Json} {i : Nat} {item value : Json}
    (hitem : items[i]? = some item) (h : Block.ofJson item = Block.ofJson value) :
    Flow.ofItems items = Flow.ofItems (items.set i value) := by
  induction items generalizing i with
  | nil => cases hitem
  | cons first items ih =>
    cases i with
    | zero =>
      cases hitem
      rw [List.set_cons_zero, Flow.ofItems, Flow.ofItems, h]
    | succ i =>
      rw [List.set_cons_succ, Flow.ofItems, Flow.ofItems, ih hitem]

theorem listOfJson_set {opcode : String} {items : List Json} {i : Nat} {item value : Json}
    (hitem : items[i]? = some item) (h : Arg.ofJson opcode item = Arg.ofJson opcode value) :
    Arg.listOfJson opcode items = Arg.listOfJson opcode (items.set i value) := by
  induction items generalizing i with
  | nil => cases hitem
  | cons first items ih =>
    cases i with
    | zero =>
      cases hitem
      rw [List.set_cons_zero, Arg.listOfJson, Arg.listOfJson, h]
    | succ i =>
      rw [List.set_cons_succ, Arg.listOfJson, Arg.listOfJson, ih hitem]

/-- Blocks agree if their slots do, a missing slot counting as `null`. -/
theorem Agree.block {opcode : String} {items items' : List Json}
    (hargs : Agree (.args opcode) (items.getD 0 .null) (items'.getD 0 .null))
    (hbody : Agree .flow (items.getD 1 .null) (items'.getD 1 .null))
    (helse : Agree .flow (items.getD 2 .null) (items'.getD 2 .null)) :
    Agree .block (.list (.string opcode :: items)) (.list (.string opcode :: items')) := by
  simp only [Agree, blockOfJson_eq] at hargs ⊢
  rw [hargs, hbody.2, helse.2]

/-- Arguments agree if their slots do. -/
theorem Agree.apply {owner opcode : String} {items items' : List Json}
    (hargs : Agree (.args opcode) (items.getD 0 .null) (items'.getD 0 .null)) :
    Agree (.arg owner) (.list (.string opcode :: items)) (.list (.string opcode :: items')) := by
  simp only [Agree, argOfJson_eq] at hargs ⊢
  rw [hargs]

theorem Agree.refl (place : Place) (j : Json) : place.Agree j j := by
  cases place with
  | flow => exact ⟨rfl, rfl⟩
  | block | args | arg => rfl

theorem getD_take {items : List Json} {n i : Nat} (h : i < n) :
    (items.take n).getD i .null = items.getD i .null := by
  simp [List.getD_eq_getElem?_getD, h]

/-- An empty slot is as good as none. -/
theorem getD_append_null (items : List Json) (i : Nat) :
    (items ++ [Json.null]).getD i .null = items.getD i .null := by
  simp only [List.getD_eq_getElem?_getD, List.getElem?_append]
  split
  · rfl
  · next hi =>
    have hnone : items[i]? = none := List.getElem?_eq_none (by omega)
    rw [hnone, List.getElem?_singleton]
    split <;> rfl

/-- A piece that is spelled in another way makes no difference to the value. -/
theorem Agree.inside {place : Place} {items : List Json} {piece : Piece} {value : Json}
    (hpiece : piece ∈ place.pieces (.list items)) (h : piece.place.Agree piece.value value) :
    place.Agree (.list items) (.list (items.set piece.index value)) := by
  generalize hj : Json.list items = j at hpiece
  unfold pieces at hpiece
  split at hpiece <;> cases hj
  · obtain ⟨i, item, hitem, rfl⟩ := mem_row.mp hpiece
    have hitems := ofItems_set hitem h
    exact ⟨hitems, by rw [Flow.innerOfJson, Flow.innerOfJson, hitems]⟩
  · rcases mem_blockSlots hpiece with
      ⟨_, _, rfl, rfl⟩ | ⟨_, _, _, rfl, rfl⟩ | ⟨_, _, _, _, rfl, rfl⟩
    · exact .block h (.refl _ _) (.refl _ _)
    · exact .block (.refl _ _) h (.refl _ _)
    · exact .block (.refl _ _) (.refl _ _) h
  · obtain ⟨i, item, hitem, rfl⟩ := mem_row.mp hpiece
    exact listOfJson_set hitem h
  · obtain ⟨_, _, rfl, rfl⟩ := mem_argSlot hpiece
    exact .apply h
  · simp at hpiece

/-- **Spelling makes no difference** to what is decoded. -/
theorem Agree.of_respells {place : Place} {j j' : Json} (h : place.Respells j j') :
    place.Agree j j' := by
  induction h with
  | cutBlock =>
    refine .block ?_ ?_ ?_ <;> rw [getD_take (by decide)] <;> exact .refl _ _
  | cutArg =>
    refine .apply ?_
    rw [getD_take (by decide)]
    exact .refl _ _
  | padBlock =>
    refine .block ?_ ?_ ?_ <;> rw [getD_append_null] <;> exact .refl _ _
  | padArg =>
    refine .apply ?_
    rw [getD_append_null]
    exact .refl _ _
  | noArgs => rfl
  | inside hpiece _ ih => exact .inside hpiece ih

end Place

/-- **The grammar of flows.** Exactly what the grammar admits is decoded. The
    error is that of the first fault, in the order in which a document is read.
    Neither items that do not count nor empty slots make a difference, at any
    depth. -/
theorem Flow.ofJson_iff_admits (j : Json) :
    ((∃ flow, Flow.ofJson j = .ok flow) ↔ Place.flow.Admits j) ∧
    (∀ error, Flow.ofJson j = .error error ↔ Place.flow.FirstFault j error) ∧
    ∀ j', Place.flow.Respells j j' → Flow.ofJson j' = Flow.ofJson j := by
  refine ⟨?_, ?_, ?_⟩
  · rw [← failure?_eq_none_iff]
    exact @Place.failure?_eq_none_iff .flow j
  · intro error
    rw [← failure?_eq_some_iff]
    exact @Place.failure?_eq_some_iff .flow j error
  · intro j' h
    exact (Place.Agree.of_respells h).1.symm

/-- Something that does not count behind an argument deep inside a flow, and a
    flow with three faults, the first of them in an inner argument. -/
theorem Flow.ofJson_iff_admits_deep :
    let sum : List Json := [.string "plus", .list [.bool true, .string "box_x"]]
    let inside : Json → Json := fun arg =>
      .list [.list [.string "if", .null, .list [.list [.string "print", .list [arg]]]]]
    let flow : Flow := [⟨.op "if", [], some [⟨.op "print",
      [.apply "plus" [.literal (.bool true), .box "x"]], none, none⟩], none⟩]
    let broken : Json := .list [
      .list [.string "if", .list [.list [.string "less", .list [.null, .object []]], .object []]],
      .null]
    Place.flow.Admits (inside (.list sum)) ∧
    Place.flow.Respells (inside (.list (sum ++ [.object []]))) (inside (.list sum)) ∧
    Flow.ofJson (inside (.list sum)) = .ok flow ∧
    Flow.ofJson (inside (.list (sum ++ [.object []]))) = .ok flow ∧
    Place.flow.FirstFault broken (.badArg "less" (.object [])) := by
  intro sum inside flow broken
  have hflow : Flow.ofJson (inside (.list sum)) = .ok flow := rfl
  have hcut : Place.Respells (.arg "print") (.list (sum ++ [.object []])) (.list sum) := .cutArg
  have hrespells :
      Place.flow.Respells (inside (.list (sum ++ [.object []]))) (inside (.list sum)) :=
    @Place.Respells.inside _ _ ⟨0, .block, _⟩ _ (.head _) <|
      @Place.Respells.inside _ _ ⟨2, .flow, _⟩ _ (.tail _ (.head _)) <|
        @Place.Respells.inside _ _ ⟨0, .block, _⟩ _ (.head _) <|
          @Place.Respells.inside _ _ ⟨1, .args "print", _⟩ _ (.head _) <|
            @Place.Respells.inside _ _ ⟨0, .arg "print", _⟩ _ (.head _) hcut
  have hsame := (Flow.ofJson_iff_admits (inside (.list (sum ++ [.object []])))).2.2 _ hrespells
  exact ⟨(Flow.ofJson_iff_admits _).1.mp ⟨flow, hflow⟩, hrespells, hflow, hsame ▸ hflow,
    ((Flow.ofJson_iff_admits broken).2.1 _).mp rfl⟩

end BlockFlow
