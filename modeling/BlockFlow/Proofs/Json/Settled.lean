import BlockFlow.Proofs.Flow.Canonical
import BlockFlow.Proofs.Json.Nesting
import BlockFlow.Proofs.Json.RoundTrip

/-! # What was read can be written and read again

    Readers accept more than is ever written: fields in any order or as a
    list, unknown fields, optional fields left out, `null` for no content,
    integers for doubles. Whatever text a program was read from, its own text
    nests no deeper, and holds finite doubles only. So it is read again.

    - From a reading that succeeded we take back what it must have read: a
      variant of a choice (`choice_eq_ok`), and for every field of a record a
      node inside of it or the value of an absent field (`Fields.Gathered`).
    - `Settles n read write floats` says of a reader with room for `n`
      containers: what it reads, written again, is no higher than `n` and no
      higher than the node it was read from.
    - Rules for `Settles` follow the readers for choices, records and lists,
      and the tables of variants are gone through with them entry by entry. -/

namespace BlockFlow

theorem eq_ok_of_toOption {ε α : Type*} {r : Except ε α} {a : α} (h : r.toOption = some a) :
    r = .ok a := by
  cases r with
  | error e => cases h
  | ok b => exact congrArg Except.ok (Option.some.inj h)

namespace Json

/-! ## Section 1: What a reading has read -/

theorem Variant.find_eq_ok {α : Type} {variants : List (Variant α)} {name : String}
    {content : Content α} (h : Variant.find variants name = .ok content) :
    ∃ variant ∈ variants, variant.content = content := by
  unfold Variant.find at h
  split at h
  · next variant hfind => exact ⟨variant, List.mem_of_find?_eq_some hfind, Except.ok.inj h⟩
  · cases h

theorem Variant.bare_eq_ok {α : Type} {content : Content α} {a : α}
    (h : Variant.bare content = .ok a) : content = .unit a := by
  cases content with
  | unit value => exact congrArg Content.unit (Except.ok.inj h)
  | single read => cases h
  | fields read => cases h

/-- A choice that was read is a variant without content, or one whose content
    stands inside the node. -/
theorem choice_eq_ok {α : Type} {variants : List (Variant α)} {room : Bool} {node : Node} {a : α}
    (h : choice variants room node = .ok a) :
    (∃ variant ∈ variants, variant.content = .unit a) ∨
      (room = true ∧ ∃ variant ∈ variants, ∃ child : Node, child.height < node.height ∧
        Variant.filled child variant.content = .ok a) := by
  unfold choice at h
  split at h
  · next name =>
    obtain ⟨content, hfind, hbare⟩ := exists_of_bind_eq_ok h
    obtain ⟨variant, hmem, rfl⟩ := Variant.find_eq_ok hfind
    exact .inl ⟨variant, hmem, Variant.bare_eq_ok hbare⟩
  · next members ending =>
    split at h
    · cases h
    · cases h
    · next key child more =>
      obtain ⟨name, -, h⟩ := exists_of_bind_eq_ok h
      obtain ⟨content, hfind, h⟩ := exists_of_bind_eq_ok h
      obtain ⟨value, hfilled, h⟩ := exists_of_bind_eq_ok h
      obtain ⟨-, -, h⟩ := exists_of_bind_eq_ok h
      obtain rfl := Except.ok.inj h
      obtain ⟨variant, hmem, rfl⟩ := Variant.find_eq_ok hfind
      refine .inr ⟨rfl, variant, hmem, child, ?_, hfilled⟩
      rw [Node.height, Node.membersHeight]
      omega
  all_goals cases h

/-- The value that stands for a field that is not there. -/
def Presence.Absent {α : Type} : Presence α → α → Prop
  | .required, _ => False
  | .optional absent, a => a = absent
  | .defaulted absent, a => a = absent

namespace Fields

/-- **Where the values of fields come from**: each was there before, or was
    read from a node that is no higher than `depth`, or stands for a field
    that is not there. -/
def Gathered (depth : Nat) : {γ : Type} → Fields γ → γ → Prop
  | _, .nil, _ => True
  | _, .cons _ read presence value rest, (a, b) =>
    (value = some a ∨ (∃ node : Node, node.height ≤ depth ∧ read node = .ok a) ∨
      presence.Absent a) ∧ rest.Gathered depth b

theorem gathered_of_values {depth : Nat} : ∀ {γ : Type} {fields : Fields γ} {v : γ},
    fields.values = .ok v → fields.Gathered depth v
  | _, .nil, _, _ => trivial
  | _, .cons _ _ presence (some a) rest, v, h => by
    rw [values] at h
    obtain ⟨b, hb, rfl⟩ := exists_of_bind_return_eq_ok h
    exact ⟨.inl rfl, gathered_of_values hb⟩
  | _, .cons _ _ .required none rest, v, h => by cases h
  | _, .cons _ _ (.optional absent) none rest, v, h => by
    rw [values] at h
    obtain ⟨b, hb, rfl⟩ := exists_of_bind_return_eq_ok h
    exact ⟨.inr (.inr rfl), gathered_of_values hb⟩
  | _, .cons _ _ (.defaulted absent) none rest, v, h => by
    rw [values] at h
    obtain ⟨b, hb, rfl⟩ := exists_of_bind_return_eq_ok h
    exact ⟨.inr (.inr rfl), gathered_of_values hb⟩

/-- A member that was placed is where the value of its field comes from. -/
theorem gathered_of_place {depth : Nat} {key : String} {node : Node} (hnode : node.height ≤ depth) :
    ∀ {γ : Type} {fields placed : Fields γ} {v : γ},
      fields.place key node = some (.ok placed) → placed.Gathered depth v → fields.Gathered depth v
  | _, .nil, _, _, h, _ => by cases h
  | _, .cons name read presence value rest, placed, v, h, hplaced => by
    rcases place_cons_eq_ok.mp h with ⟨-, rfl, a, ha, rfl⟩ | ⟨-, inner, hinner, rfl⟩
    · -- This is the field of that name, and it had no value before.
      obtain ⟨hfirst | hfirst | hfirst, hrest⟩ := hplaced
      · obtain rfl := Option.some.inj hfirst
        exact ⟨.inr (.inl ⟨node, hnode, ha⟩), hrest⟩
      · exact ⟨.inr (.inl hfirst), hrest⟩
      · exact ⟨.inr (.inr hfirst), hrest⟩
    · exact ⟨hplaced.1, gathered_of_place hnode hinner hplaced.2⟩

theorem gathered_of_readObject {depth : Nat} {γ : Type}
    {members : List (Except Fault String × Node)}
    (hmembers : ∀ member ∈ members, member.2.height ≤ depth) {fields filled : Fields γ} {v : γ}
    (h : fields.readObject members = .ok filled) (hvalues : filled.values = .ok v) :
    fields.Gathered depth v := by
  induction members generalizing fields with
  | nil =>
    obtain rfl := Except.ok.inj h
    exact gathered_of_values hvalues
  | cons member members ih =>
    obtain ⟨hmember, hmembers⟩ := List.forall_mem_cons.mp hmembers
    obtain ⟨next, ⟨key, -, hplace | ⟨-, -, rfl⟩⟩, hrest⟩ := readObject_cons_eq_ok.mp h
    · exact gathered_of_place hmember hplace (ih hmembers hrest)
    · exact ih hmembers hrest

theorem gathered_of_readList {depth : Nat} {wanted : String} {ending : Ending} :
    ∀ {γ : Type} {fields : Fields γ} {items : List Node} {count : Nat} {v : γ},
      (∀ item ∈ items, item.height ≤ depth) →
      fields.readList wanted count items ending = .ok v → fields.Gathered depth v
  | _, .nil, _, _, _, _, _ => trivial
  | _, .cons _ read _ _ rest, item :: items, count, v, hitems, h => by
    obtain ⟨hitem, hitems⟩ := List.forall_mem_cons.mp hitems
    rw [readList] at h
    obtain ⟨a, ha, h⟩ := exists_of_bind_eq_ok h
    obtain ⟨b, hb, rfl⟩ := exists_of_bind_return_eq_ok h
    exact ⟨.inr (.inl ⟨item, hitem, ha⟩), gathered_of_readList hitems hb⟩
  | _, .cons _ _ presence _ rest, [], count, v, hitems, h => by
    unfold readList at h
    obtain ⟨-, -, h⟩ := exists_of_bind_eq_ok h
    cases presence with
    | required => cases h
    | optional absent => cases h
    | defaulted absent =>
      obtain ⟨b, hb, rfl⟩ := exists_of_bind_return_eq_ok h
      exact ⟨.inr (.inr rfl), gathered_of_readList hitems hb⟩

end Fields

/-- The fields of a record that was read are gathered from inside the node,
    whether it is an object or a list. -/
theorem record_eq_ok {γ : Type} {title : String} {inside : Option (Fields γ)} {node : Node} {v : γ}
    (h : record title inside node = .ok v) :
    ∃ fields depth, inside = some fields ∧ depth < node.height ∧ fields.Gathered depth v := by
  unfold record at h
  split at h
  · next members ending =>
    split at h
    · cases h
    · next fields =>
      split at h
      · cases h
      · next filled hfilled =>
        obtain ⟨-, -, hvalues⟩ := exists_of_bind_eq_ok h
        refine ⟨fields, Node.membersHeight members, rfl, ?_, ?_⟩
        · rw [Node.height]
          exact Nat.lt_succ_self _
        · exact Fields.gathered_of_readObject
            (Node.membersHeight_le_iff.mp (Nat.le_refl _)) hfilled hvalues
  · next items ending =>
    split at h
    · cases h
    · next fields =>
      refine ⟨fields, Node.itemsHeight items, rfl, ?_, ?_⟩
      · rw [Node.height]
        exact Nat.lt_succ_self _
      · exact Fields.gathered_of_readList (Node.itemsHeight_le_iff.mp (Nat.le_refl _)) h
  · cases h

end Json

open Json (height Fields)

/-! ## Section 2: Readers that settle -/

theorem Readable.mono {m n : Nat} {j : Json} {floats : List Double} (h : Readable m j floats)
    (hle : m ≤ n) : Readable n j floats :=
  ⟨Nat.le_trans h.1 hle, h.2⟩

theorem readable_of_flat {n : Nat} {j : Json} (h : height j = 0) : Readable n j [] :=
  readable_of_height (h ▸ Nat.zero_le n)

/-- **A reader that settles**: what it reads with room for so many containers
    is no higher, when it is written, than the room and than what it was read
    from, and holds finite doubles only. -/
def Settles {α : Type} (n : Nat) (read : Json.Reader α) (write : α → Json)
    (floats : α → List Double) : Prop :=
  ∀ node a, read node = .ok a → Readable (min n node.height) (write a) (floats a)

/-- Whatever is written without containers and holds no doubles settles. -/
theorem settles_of_flat {α : Type} {n : Nat} {read : Json.Reader α} {write : α → Json}
    (h : ∀ a, height (write a) = 0) : Settles n read write fun _ => [] :=
  fun _ a _ => readable_of_flat (h a)

theorem settles_text {n : Nat} : Settles n Json.text Json.string fun _ => [] :=
  settles_of_flat fun _ => rfl

theorem settles_flag {n : Nat} : Settles n Json.flag Json.bool fun _ => [] :=
  settles_of_flat fun _ => rfl

/-- What is written as its name settles. -/
theorem settles_name {α : Type} {n : Nat} {read : Json.Reader α} (name : α → String) :
    Settles n read (fun a => .string (name a)) fun _ => [] :=
  settles_of_flat fun _ => rfl

/-- The doubles of a text are finite, and so are those nearest to its integers. -/
theorem Number.isFinite_toDouble (n : Number) : n.toDouble.isFinite = true := by
  cases n with
  | whole n fits => exact Double.isFinite_ofInt (by omega)
  | real x finite => exact finite

theorem settles_double {n : Nat} : Settles n Json.double Json.ofDouble fun x => [x] := by
  intro node x h
  cases node with
  | number m =>
    obtain rfl := Except.ok.inj h
    refine ⟨?_, List.forall_mem_singleton.mpr m.isFinite_toDouble⟩
    rw [Json.height_ofDouble]
    exact Nat.zero_le _
  | _ => cases h

section rules

variable {α : Type} {n : Nat} {read : Json.Reader α} {write : α → Json}
  {floats : α → List Double}

theorem Settles.optional (h : Settles n read write floats) :
    Settles n (Json.optional read) (fun a => a.elim .null write) fun a => a.elim [] floats := by
  intro node a ha
  cases a with
  | none => exact readable_of_flat rfl
  | some a =>
    unfold Json.optional at ha
    split at ha
    · cases ha
    · cases ha
    · obtain ⟨b, hread, hb⟩ := map_eq_ok_iff.mp ha
      obtain rfl := Option.some.inj hb
      exact h node b hread

theorem settles_items (h : Settles n read write floats) :
    ∀ {items : List Json.Node} {values : List α}, Json.readItems read items = .ok values →
      ∀ a ∈ values, Readable (min n (Json.Node.itemsHeight items)) (write a) (floats a)
  | [], _, hread => by
    obtain rfl := Except.ok.inj hread
    exact List.forall_mem_nil _
  | item :: items, values, hread => by
    rw [Json.readItems] at hread
    obtain ⟨first, hfirst, hread⟩ := exists_of_bind_eq_ok hread
    obtain ⟨rest, hrest, rfl⟩ := exists_of_bind_return_eq_ok hread
    rw [Json.Node.itemsHeight]
    refine List.forall_mem_cons.mpr ⟨?_, fun a ha => ?_⟩
    · exact (h item first hfirst).mono (by omega)
    · exact (settles_items h hrest a ha).mono (by omega)

/-- A list settles if its items do with room for one container less. -/
theorem Settles.listOf (h : Settles n read write floats) :
    Settles (n + 1) (Json.listOf (some read)) (fun items => .list (items.map write))
      fun items => items.flatMap floats := by
  intro node values hread
  cases node with
  | list items ending =>
    obtain ⟨values, hitems, hread⟩ := exists_of_bind_eq_ok hread
    obtain ⟨-, -, hread⟩ := exists_of_bind_eq_ok hread
    obtain rfl := Except.ok.inj hread
    have hall := settles_items h hitems
    refine ⟨?_, ?_⟩
    · rw [height, Json.Node.height, Nat.add_min_add_right, Nat.add_le_add_iff_right,
        itemsHeight_map_le_iff]
      exact fun a ha => (hall a ha).1
    · intro x hx
      obtain ⟨a, ha, hx⟩ := List.mem_flatMap.mp hx
      exact (hall a ha).2 x hx
  | _ => cases hread

/-- A variant that settles, among variants for which there is room for `n`
    containers: without content it is flat, and with content it adds one
    container to it. -/
structure SettlesVariant (n : Nat) (write : α → Json) (floats : α → List Double)
    (variant : Json.Variant α) : Prop where
  /-- The variant without content. -/
  bare : ∀ a, variant.content = .unit a → Readable 0 (write a) (floats a)
  /-- The variant with its content. -/
  filled : ∀ child a, Json.Variant.filled child variant.content = .ok a →
    Readable (min (n - 1) child.height + 1) (write a) (floats a)

/-- A choice settles if all its variants do. -/
theorem Settles.choice {variants : List (Json.Variant α)}
    (h : ∀ variant ∈ variants, SettlesVariant n write floats variant) :
    Settles n (Json.choice variants (decide (0 < n))) write floats := by
  intro node a ha
  -- Without content a variant is flat, and with content there was room for it.
  rcases Json.choice_eq_ok ha with
    ⟨variant, hmem, hunit⟩ | ⟨hroom, variant, hmem, child, hlt, hread⟩
  · exact ((h variant hmem).bare a hunit).mono (Nat.zero_le _)
  · have hpos : 0 < n := of_decide_eq_true hroom
    exact ((h variant hmem).filled child a hread).mono (by omega)

theorem settlesVariant_unit {name : String} {a : α} (hflat : height (write a) = 0)
    (hfloats : floats a = []) : SettlesVariant n write floats ⟨name, .unit a⟩ where
  bare b hb := by
    obtain rfl := Json.Content.unit.inj hb
    rw [hfloats]
    exact readable_of_flat hflat
  filled child b hb := by
    obtain ⟨-, -, rfl⟩ := map_eq_ok_iff.mp hb
    rw [hfloats]
    exact readable_of_flat hflat

theorem readable_tagged_succ {m : Nat} {name : String} {j : Json} {floats : List Double}
    (h : Readable m j floats) : Readable (m + 1) (.tagged name j) floats :=
  readable_tagged.mpr ⟨decide_eq_true (Nat.succ_pos m), h⟩

/-- A variant with a single value settles if the value does. -/
theorem settlesVariant_single {β : Type} {name : String} {make : β → α}
    {readContent : Json.Reader β} {content : β → Json} {contentFloats : β → List Double}
    (h : Settles (n - 1) readContent content contentFloats)
    (hwrite : ∀ b, write (make b) = .tagged name (content b))
    (hfloats : ∀ b, floats (make b) = contentFloats b) :
    SettlesVariant n write floats ⟨name, .single fun node => (readContent node).map make⟩ where
  bare a ha := by cases ha
  filled child a ha := by
    obtain ⟨b, hb, rfl⟩ := map_eq_ok_iff.mp ha
    rw [hwrite, hfloats]
    exact readable_tagged_succ (h child b hb)

end rules

/-! ## Section 3: Records that settle -/

/-- The values of fields settle: gathered from nodes no higher than `depth`,
    they are written as members no higher than the room and than `depth`. -/
def SettlesFields (n : Nat) {γ : Type} (fields : Fields γ) (members : γ → List (String × Json))
    (floats : γ → List Double) : Prop :=
  ∀ depth v, fields.Gathered depth v →
    Json.membersHeight (members v) ≤ min n depth ∧ ∀ x ∈ floats v, x.isFinite = true

namespace SettlesFields

variable {n : Nat} {α β : Type} {name : String} {read : Json.Reader α} {write : α → Json}
  {floats : α → List Double} {rest : Fields β} {members : β → List (String × Json)}
  {more : β → List Double}

theorem nil : SettlesFields n .nil (fun _ => []) fun _ => [] :=
  fun _ _ _ => ⟨Nat.zero_le _, List.forall_mem_nil _⟩

theorem required (h : Settles n read write floats) (hrest : SettlesFields n rest members more) :
    SettlesFields n (.required name read rest) (fun v => (name, write v.1) :: members v.2)
      fun v => floats v.1 ++ more v.2 := by
  rintro depth ⟨a, b⟩ ⟨hfirst | ⟨node, hnode, hread⟩ | hfirst, hothers⟩
  · cases hfirst
  · obtain ⟨hheight, hfinite⟩ := (h node a hread).mono (min_le_min_left n hnode)
    obtain ⟨hheights, hfinites⟩ := hrest depth b hothers
    exact ⟨Nat.max_le.mpr ⟨hheight, hheights⟩, List.forall_mem_append.mpr ⟨hfinite, hfinites⟩⟩
  · exact hfirst.elim

theorem maybe (h : Settles n read write floats) (hrest : SettlesFields n rest members more) :
    SettlesFields n (.maybe name read rest)
      (fun v => (name, v.1.elim .null write) :: members v.2)
      fun v => v.1.elim [] floats ++ more v.2 := by
  rintro depth ⟨a, b⟩ ⟨hfirst | ⟨node, hnode, hread⟩ | hfirst, hothers⟩
  · cases hfirst
  · obtain ⟨hheight, hfinite⟩ := (h.optional node a hread).mono (min_le_min_left n hnode)
    obtain ⟨hheights, hfinites⟩ := hrest depth b hothers
    exact ⟨Nat.max_le.mpr ⟨hheight, hheights⟩, List.forall_mem_append.mpr ⟨hfinite, hfinites⟩⟩
  · -- A field that is not there is written as `null`.
    obtain rfl : a = none := hfirst
    obtain ⟨hheights, hfinites⟩ := hrest depth b hothers
    exact ⟨Nat.max_le.mpr ⟨Nat.zero_le _, hheights⟩, hfinites⟩

end SettlesFields

/-- The readers for the fields of a node settle, with room for so many
    containers in each of them. -/
structure Parts.Settle (n : Nat) (parts : Parts) : Prop where
  expr : Settles n parts.expr Expr.toJson Expr.floats
  stmt : Settles n parts.stmt Stmt.toJson Stmt.floats
  exprs : Settles n parts.exprs (fun es => .list (Expr.listToJson es)) Expr.listFloats
  stmts : Settles n parts.stmts (fun ss => .list (Stmt.listToJson ss)) Stmt.listFloats
  names : Settles n parts.names (fun names => .list (names.map Json.string)) fun _ => []

/-- A variant with fields settles if its fields do, with room for two
    containers less: its own and that of the fields. -/
theorem settlesVariant_withFields {α γ : Type} {n : Nat} {write : α → Json}
    {floats : α → List Double} {type name : String} {inside : Option Parts}
    {fields : Parts → Fields γ} {make : γ → α} {members : γ → List (String × Json)}
    {fieldFloats : γ → List Double}
    (hinside : ∀ parts ∈ inside, ∃ k, n = k + 2 ∧ parts.Settle k)
    (h : ∀ k parts, parts.Settle k → SettlesFields k (fields parts) members fieldFloats)
    (hwrite : ∀ v, write (make v) = .tagged name (.object (members v)))
    (hfloats : ∀ v, floats (make v) = fieldFloats v) :
    SettlesVariant n write floats (withFields type name inside fields make) where
  bare a ha := by cases ha
  filled child a ha := by
    -- The fields were gathered from below the child, and there was room for it.
    obtain ⟨v, hrecord, rfl⟩ := map_eq_ok_iff.mp ha
    obtain ⟨filled, depth, hmap, hdepth, hgathered⟩ := Json.record_eq_ok hrecord
    obtain ⟨parts, hparts, rfl⟩ := Option.map_eq_some_iff.mp hmap
    obtain ⟨k, rfl, hsettle⟩ := hinside parts hparts
    obtain ⟨hheight, hfinite⟩ := h k parts hsettle depth v hgathered
    rw [hwrite, hfloats]
    refine readable_tagged_succ ⟨?_, hfinite⟩
    rw [height]
    omega

/-! ## Section 4: Programs -/

theorem Value.settles (n : Nat) : Settles n (Value.read n) Value.toJson Value.floats := by
  have hint : ∀ k, Settles k Json.int64 (fun m => .number (.ofInt64 m)) fun _ => [] :=
    fun _ => settles_of_flat fun _ => rfl
  refine .choice ?_
  simp only [Value.variants, List.forall_mem_cons]
  refine ⟨settlesVariant_unit ?_ ?_, settlesVariant_single (hint _) ?_ ?_,
    settlesVariant_single settles_double ?_ ?_, settlesVariant_single settles_text ?_ ?_,
    settlesVariant_single settles_flag ?_ ?_, List.forall_mem_nil _⟩
  all_goals intros; rfl

section tables

variable {n : Nat} {inside : Option Parts}
  (hinside : ∀ parts ∈ inside, ∃ k, n = k + 2 ∧ parts.Settle k)

include hinside

theorem Expr.variants_settle {value : Json.Reader Value}
    (hvalue : Settles (n - 1) value Value.toJson Value.floats) :
    ∀ variant ∈ Expr.variants value inside,
      SettlesVariant n Expr.toJson Expr.floats variant := by
  simp only [Expr.variants, List.forall_mem_cons]
  refine ⟨settlesVariant_single hvalue ?_ ?_, settlesVariant_single settles_text ?_ ?_,
    settlesVariant_withFields hinside (fun k parts h =>
      .required (settles_name BinaryOp.name) <| .required h.expr <| .required h.expr .nil) ?_ ?_,
    settlesVariant_withFields hinside (fun k parts h =>
      .required (settles_name UnaryOp.name) <| .required h.expr .nil) ?_ ?_,
    settlesVariant_withFields hinside (fun k parts h =>
      .required h.expr <| .required h.exprs <| .required (settles_name CallMode.name) .nil) ?_ ?_,
    settlesVariant_withFields hinside (fun k parts h =>
      .required h.expr <| .required settles_text .nil) ?_ ?_,
    settlesVariant_withFields hinside (fun k parts h =>
      .required h.names <| .required h.stmts <| .required settles_flag .nil) ?_ ?_,
    List.forall_mem_nil _⟩
  all_goals simp [Expr.toJson, Expr.floats]

omit hinside in
theorem Stmt.toJson_cond (test : Expr) (body : List Stmt) (orElse : Option (List Stmt)) :
    (Stmt.cond test body orElse).toJson =
      .tagged "If"
        (.object [("test", test.toJson), ("consequent", .list (Stmt.listToJson body)),
          ("alternate", orElse.elim .null fun ss => .list (Stmt.listToJson ss))]) := by
  cases orElse <;> rw [Stmt.toJson] <;> rfl

omit hinside in
theorem Stmt.floats_cond (test : Expr) (body : List Stmt) (orElse : Option (List Stmt)) :
    (Stmt.cond test body orElse).floats =
      test.floats ++ (Stmt.listFloats body ++ orElse.elim [] Stmt.listFloats) := by
  cases orElse <;> simp [Stmt.floats]

omit hinside in
theorem Stmt.toJson_case (test : Option Expr) (body : List Stmt) :
    (Stmt.case test body).toJson =
      .tagged "Case"
        (.object [("test", test.elim .null Expr.toJson),
          ("consequent", .list (Stmt.listToJson body))]) := by
  cases test <;> rw [Stmt.toJson] <;> rfl

omit hinside in
theorem Stmt.floats_case (test : Option Expr) (body : List Stmt) :
    (Stmt.case test body).floats = test.elim [] Expr.floats ++ Stmt.listFloats body := by
  cases test <;> simp [Stmt.floats]

theorem Stmt.variants_settle {expr : Json.Reader Expr}
    (hexpr : Settles (n - 1) expr Expr.toJson Expr.floats) :
    ∀ variant ∈ Stmt.variants expr inside,
      SettlesVariant n Stmt.toJson Stmt.floats variant := by
  simp only [Stmt.variants, List.forall_mem_cons]
  refine ⟨settlesVariant_withFields hinside (fun k parts h =>
      .required h.expr <| .required h.stmts <| .maybe h.stmts .nil) ?_ ?_,
    settlesVariant_withFields hinside (fun k parts h =>
      .required h.stmt <| .required h.expr <| .required h.stmt <| .required h.stmts .nil) ?_ ?_,
    settlesVariant_withFields hinside (fun k parts h =>
      .required h.expr <| .required h.stmts .nil) ?_ ?_,
    settlesVariant_withFields hinside (fun k parts h =>
      .required h.stmts <| .required h.expr .nil) ?_ ?_,
    settlesVariant_withFields hinside (fun k parts h =>
      .required h.expr <| .required h.stmts .nil) ?_ ?_,
    settlesVariant_withFields hinside (fun k parts h =>
      .maybe h.expr <| .required h.stmts .nil) ?_ ?_,
    settlesVariant_unit ?_ ?_,
    settlesVariant_withFields hinside (fun k parts h =>
      .required settles_text <| .required h.expr .nil) ?_ ?_,
    settlesVariant_withFields hinside (fun k parts h =>
      .required h.expr <| .required h.expr .nil) ?_ ?_,
    settlesVariant_single hexpr ?_ ?_, settlesVariant_single hexpr ?_ ?_,
    List.forall_mem_nil _⟩
  all_goals
    simp [Stmt.toJson_cond, Stmt.floats_cond, Stmt.toJson_case, Stmt.floats_case, Stmt.toJson,
      Stmt.floats, height]

end tables

/-- Lists settle with the readers of their items. -/
theorem settles_readList {α : Type} {write : α → Json} {floats : α → List Double}
    (read : Nat → Json.Reader α) (readList : Nat → Json.Reader (List α))
    (hzero : ∀ node, readList 0 node = Json.listOf none node)
    (hsucc : ∀ k node, readList (k + 1) node = Json.listOf (some (read k)) node) {n : Nat}
    (h : ∀ k < n, Settles k (read k) write floats) :
    Settles n (readList n) (fun items => .list (items.map write))
      fun items => items.flatMap floats := by
  intro node values hread
  cases n with
  | zero =>
    -- Even an empty list is a container, for which there is no room.
    rw [hzero] at hread
    cases node <;> cases hread
  | succ k =>
    rw [hsucc] at hread
    exact (h k (Nat.lt_succ_self k)).listOf node values hread

theorem Parts.withRoom_settle {n : Nat}
    (hexpr : ∀ k ≤ n, Settles k (Expr.read k) Expr.toJson Expr.floats)
    (hstmt : ∀ k ≤ n, Settles k (Stmt.read k) Stmt.toJson Stmt.floats) :
    (Parts.withRoom n).Settle n where
  expr := hexpr n (Nat.le_refl n)
  stmt := hstmt n (Nat.le_refl n)
  exprs := by
    simp only [Expr.listToJson_eq_map, funext Expr.listFloats_eq_flatMap]
    exact settles_readList Expr.read Expr.readList (fun _ => by rw [Expr.readList])
      (fun _ _ => by rw [Expr.readList]) fun k hk => hexpr k (Nat.le_of_lt hk)
  stmts := by
    simp only [Stmt.listToJson_eq_map, funext Stmt.listFloats_eq_flatMap]
    exact settles_readList Stmt.read Stmt.readList (fun _ => by rw [Stmt.readList])
      (fun _ _ => by rw [Stmt.readList]) fun k hk => hstmt k (Nat.le_of_lt hk)
  names := by
    have hnone : (fun names : List String => names.flatMap fun _ => ([] : List Double)) =
        fun _ => [] := by
      funext names
      simp
    have hnames := settles_readList (fun _ => Json.text) (fun k => (Parts.withRoom k).names)
      (fun _ => rfl) (fun _ _ => rfl) fun k (_ : k < n) => settles_text
    rwa [hnone] at hnames

/-- Expressions and statements settle. A part has less room than the whole, so
    this is by induction on the room. -/
theorem settles_read (n : Nat) :
    Settles n (Expr.read n) Expr.toJson Expr.floats ∧
      Settles n (Stmt.read n) Stmt.toJson Stmt.floats := by
  induction n using Nat.strong_induction_on with
  | h n ih =>
    have hinside : ∀ parts ∈ Parts.inside n, ∃ k, n = k + 2 ∧ parts.Settle k := by
      intro parts hparts
      match n with
      | 0 | 1 => cases hparts
      | n + 2 =>
        obtain rfl := Option.some.inj hparts
        exact ⟨n, rfl, Parts.withRoom_settle (fun k hk => (ih k (by omega)).1)
          fun k hk => (ih k (by omega)).2⟩
    refine ⟨?_, ?_⟩
    · rw [funext (Expr.read_eq n)]
      exact .choice (Expr.variants_settle hinside (Value.settles (n - 1)))
    · cases n with
      | zero =>
        rw [Stmt.read_zero]
        exact .choice (Stmt.variants_settle hinside nofun)
      | succ n =>
        rw [Stmt.read_succ]
        exact .choice (Stmt.variants_settle hinside (ih n (Nat.lt_succ_self n)).1)

theorem Program.settles_read (n : Nat) :
    Settles n (Program.read n) Program.toJson Program.floats := by
  intro node p hread
  obtain ⟨⟨body, _⟩, hrecord, rfl⟩ := exists_of_bind_return_eq_ok hread
  obtain ⟨fields, depth, hinside, hdepth, hgathered⟩ := Json.record_eq_ok hrecord
  cases n with
  | zero => cases hinside
  | succ n =>
    obtain rfl := Option.some.inj hinside
    have hparts : (Parts.withRoom n).Settle n :=
      Parts.withRoom_settle (fun k _ => (BlockFlow.settles_read k).1)
        fun k _ => (BlockFlow.settles_read k).2
    have hfields : SettlesFields n (Program.fields n) _ _ := .required hparts.stmts .nil
    obtain ⟨hheight, hfinite⟩ := hfields depth (body, ()) hgathered
    refine ⟨?_, (List.forall_mem_append.mp hfinite).1⟩
    have hheight : height (Program.toJson ⟨body⟩) ≤ min n depth + 1 := Nat.succ_le_succ hheight
    exact hheight.trans (by omega)

/-- A program that a text holds was read from its document. -/
theorem Program.read_of_ofText {text : String} {p : Program} (h : Program.ofText text = .ok p) :
    Program.read Json.maxDepth (Json.Document.ofText text).root = .ok p := by
  unfold Program.ofText Json.readText Json.Document.read at h
  cases hread : Program.read Json.maxDepth (Json.Document.ofText text).root with
  | error problem =>
    rw [hread] at h
    cases h
  | ok q =>
    rw [hread] at h
    cases htrailing : (Json.Document.ofText text).trailing with
    | true =>
      rw [htrailing] at h
      cases h
    | false =>
      rw [htrailing] at h
      exact congrArg Except.ok (Except.ok.inj h)

/-- **Whatever was read can be written and read again**: the doubles of a
    program that some text holds are finite, and its own text nests no deeper
    than that text and holds the same program. -/
theorem Program.ofText_toText_of_ofText {text : String} {p : Program}
    (h : Program.ofText text = .ok p) :
    (∀ x ∈ p.floats, x.isFinite = true) ∧ Json.nesting p.toText ≤ Json.nesting text ∧
      ((∀ x ∈ p.floats, x.ReadsBack) → Program.ofText p.toText = .ok p) := by
  -- The text may nest deeper than there is room for, but only in what was
  -- passed over: the room bounds the height of the program, too.
  have hread := Program.read_of_ofText h
  obtain ⟨hheight, hfinite⟩ := Program.settles_read _ _ _ hread
  obtain ⟨hroom, hheight⟩ := Nat.le_min.mp hheight
  have hwritten : Program.ofText p.toText = _ := p.ofText_written Json.Style.compact_blank
  have hnesting : Json.nesting p.toText = height p.toJson :=
    Json.nesting_written Json.Style.compact_blank p.toJson
  refine ⟨hfinite, ?_, fun hback => ?_⟩
  · rw [hnesting]
    exact hheight.trans (Json.Document.height_ofText_le text)
  · rw [hwritten, (p.reads_toJson hback Json.maxDepth).1 ⟨hroom, hfinite⟩]
    rfl

theorem Program.ofText_toText_of_ofText_loose :
    let text := "\x7b \"note\": [[[[[[1E400]]]]]], \"body\": [\x7b\"Break\": null\x7d,\n\t" ++
      "\x7b\"Let\": [\"\\u266a\", \x7b\"Literal\": \x7b\"Float\": 3\x7d\x7d]\x7d, " ++
      "\x7b\"If\": \x7b\"consequent\": [], \"test\": \x7b\"Literal\": \"Null\"\x7d\x7d\x7d] \x7d"
    let written := "\x7b\"body\":[\"Break\"," ++
      "\x7b\"Let\":\x7b\"name\":\"♪\",\"init\":\x7b\"Literal\":\x7b\"Float\":3.0\x7d\x7d\x7d\x7d," ++
      "\x7b\"If\":\x7b\"test\":\x7b\"Literal\":\"Null\"\x7d,\"consequent\":[]," ++
      "\"alternate\":null\x7d\x7d]\x7d"
    ∃ p, Program.ofText text = .ok p ∧ p.toText = written ∧
      (∀ x ∈ p.floats, x.isFinite = true) ∧ Json.nesting written ≤ Json.nesting text ∧
      Program.ofText written = .ok p := by
  intro text written
  have hseen : ((Program.ofText text).toOption.map fun p => (p.toText, p.floats)) =
      some (written, [⟨0x4008000000000000⟩]) := by
    decide +kernel
  obtain ⟨p, hoption, hp⟩ := Option.map_eq_some_iff.mp hseen
  obtain ⟨hwritten, hfloats⟩ := Prod.mk.inj hp
  have hread : Program.ofText text = .ok p := eq_ok_of_toOption hoption
  have hback : ∀ x ∈ p.floats, x.ReadsBack := by
    rw [hfloats, List.forall_mem_singleton]
    exact Double.readsBack_of_toOption (by decide +kernel)
  obtain ⟨hfinite, hnesting, hagain⟩ := Program.ofText_toText_of_ofText hread
  rw [hwritten] at hnesting hagain
  exact ⟨p, hread, hwritten, hfinite, hnesting, hagain hback⟩

end BlockFlow
