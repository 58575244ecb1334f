import BlockFlow.Proofs.Json.Nesting
import BlockFlow.Proofs.Json.Reading

/-! # Layouts and their spellings

    A layout says of a value what its JSON stands for: which strings are names
    of variants, which objects are variants with content and which are records,
    and which fields may be left out. It leaves open how each of them is put
    down.

    - `Layout.toJson` puts it down in the one way of the writer.
    - `Layout.Spelled` allows all the ways that readers accept, independently
      at every place: the fields of a record as an object in any order, with
      unknown fields among them and without those that have no value, or as a
      list; a variant without content by its name, or with `null`.
    - `Layout.Reads n read a` says that the reader reads the value from every
      spelling for which there is room. Rules for it follow the readers. -/

namespace BlockFlow.Json

/-! ## Section 1: Layouts -/

/-- What the JSON of a value stands for. -/
inductive Layout where
  /-- A value that is put down in one way only. -/
  | plain (j : Json)
  /-- A variant without content. -/
  | unit (name : String)
  /-- A variant with its content. -/
  | tagged (name : String) (content : Layout)
  /-- A list. -/
  | list (items : List Layout)
  /-- A record. A field without a value may be left out. -/
  | record (fields : List (String × Option Layout))

/-- A variant with its content, as a form. -/
def Form.tagged (name : String) (content : Form) : Form := .object [(.of name, content)]

namespace Layout

mutual

/-- The JSON that is written for a layout. -/
def toJson : Layout → Json
  | .plain j => j
  | .unit name => .string name
  | .tagged name content => .object [(name, content.toJson)]
  | .list items => .list (itemsToJson items)
  | .record fields => .object (fieldsToJson fields)

/-- The JSON of the items of a list. -/
def itemsToJson : List Layout → List Json
  | [] => []
  | item :: items => item.toJson :: itemsToJson items

/-- The JSON of the fields of a record. -/
def fieldsToJson : List (String × Option Layout) → List (String × Json)
  | [] => []
  | (name, none) :: fields => (name, .null) :: fieldsToJson fields
  | (name, some layout) :: fields => (name, layout.toJson) :: fieldsToJson fields

end

/-- An unknown field with a scalar value: its key is read as a string that is
    the name of no field. The value need not be one that can be read. -/
def Unknown (fields : List (String × Option Layout)) (member : Literal × Form) : Prop :=
  ∃ key s, member.1.reread = .ok key ∧ key ∉ fields.map Prod.fst ∧ member.2 = .scalar s

mutual

/-- **The spellings of a layout.** -/
inductive Spelled : Layout → Form → Prop where
  /-- A value that is put down in one way only. -/
  | plain (j : Json) : Spelled (.plain j) (.ofJson j)
  /-- A variant without content, by its name. -/
  | name (name : String) : Spelled (.unit name) (.ofJson (.string name))
  /-- A variant without content, with `null`. -/
  | noContent (name : String) : Spelled (.unit name) (.tagged name (.ofJson .null))
  /-- A variant with its content. -/
  | tagged {name : String} {layout : Layout} {form : Form} (h : Spelled layout form) :
      Spelled (.tagged name layout) (.tagged name form)
  /-- A list. -/
  | list {items : List Layout} {forms : List Form} (h : SpelledItems items forms) :
      Spelled (.list items) (.list forms)
  /-- A record as a list of all its fields in their order. -/
  | fieldList {fields : List (String × Option Layout)} {forms : List Form}
      (h : SpelledFields fields forms) : Spelled (.record fields) (.list forms)
  /-- A record as an object in any order, with unknown fields. -/
  | fieldObject {fields : List (String × Option Layout)}
      {kept unknown members : List (Literal × Form)} (h : Kept fields kept)
      (hunknown : ∀ member ∈ unknown, Unknown fields member)
      (hperm : members.Perm (kept ++ unknown)) : Spelled (.record fields) (.object members)

/-- The spellings of the items of a list. -/
inductive SpelledItems : List Layout → List Form → Prop where
  /-- No item. -/
  | nil : SpelledItems [] []
  /-- An item and the ones behind it. -/
  | cons {item : Layout} {items : List Layout} {form : Form} {forms : List Form}
      (h : Spelled item form) (hrest : SpelledItems items forms) :
      SpelledItems (item :: items) (form :: forms)

/-- All fields of a record in their order. -/
inductive SpelledFields : List (String × Option Layout) → List Form → Prop where
  /-- No field. -/
  | nil : SpelledFields [] []
  /-- A field with a value. -/
  | given {name : String} {layout : Layout} {fields : List (String × Option Layout)} {form : Form}
      {forms : List Form} (h : Spelled layout form) (hrest : SpelledFields fields forms) :
      SpelledFields ((name, some layout) :: fields) (form :: forms)
  /-- A field without a value. -/
  | absent {name : String} {fields : List (String × Option Layout)} {forms : List Form}
      (hrest : SpelledFields fields forms) :
      SpelledFields ((name, none) :: fields) (.ofJson .null :: forms)

/-- The fields of a record that are kept in an object. -/
inductive Kept : List (String × Option Layout) → List (Literal × Form) → Prop where
  /-- No field. -/
  | nil : Kept [] []
  /-- A field with a value. -/
  | given {name : String} {layout : Layout} {fields : List (String × Option Layout)} {form : Form}
      {members : List (Literal × Form)} (h : Spelled layout form) (hrest : Kept fields members) :
      Kept ((name, some layout) :: fields) ((.of name, form) :: members)
  /-- A field without a value, as `null`. -/
  | absent {name : String} {fields : List (String × Option Layout)}
      {members : List (Literal × Form)} (hrest : Kept fields members) :
      Kept ((name, none) :: fields) ((.of name, .ofJson .null) :: members)
  /-- A field without a value, left out. -/
  | leftOut {name : String} {fields : List (String × Option Layout)}
      {members : List (Literal × Form)} (hrest : Kept fields members) :
      Kept ((name, none) :: fields) members

end

mutual

/-- What is written for a layout is one of its spellings. -/
theorem spelled_toJson : ∀ layout : Layout, Spelled layout (.ofJson layout.toJson)
  | .plain j => by
    rw [toJson]
    exact .plain j
  | .unit name => by
    rw [toJson]
    exact .name name
  | .tagged name content => by
    rw [toJson, Form.ofJson, Form.ofMembers, Form.ofMembers]
    exact .tagged (spelled_toJson content)
  | .list items => by
    rw [toJson, Form.ofJson]
    exact .list (spelledItems_toJson items)
  | .record fields => by
    rw [toJson, Form.ofJson]
    refine .fieldObject (kept_toJson fields) (List.forall_mem_nil _) ?_
    rw [List.append_nil]

theorem spelledItems_toJson :
    ∀ items : List Layout, SpelledItems items (Form.ofItems (itemsToJson items))
  | [] => by
    rw [itemsToJson, Form.ofItems]
    exact .nil
  | item :: items => by
    rw [itemsToJson, Form.ofItems]
    exact .cons (spelled_toJson item) (spelledItems_toJson items)

theorem kept_toJson :
    ∀ fields : List (String × Option Layout), Kept fields (Form.ofMembers (fieldsToJson fields))
  | [] => by
    rw [fieldsToJson, Form.ofMembers]
    exact .nil
  | (name, none) :: fields => by
    rw [fieldsToJson, Form.ofMembers]
    exact .absent (kept_toJson fields)
  | (name, some layout) :: fields => by
    rw [fieldsToJson, Form.ofMembers]
    exact .given (spelled_toJson layout) (kept_toJson fields)

end

/-! ## Section 2: Readers of layouts -/

/-- The reader reads the value from every spelling of the layout that is no
    higher than the room. -/
def Reads {α : Type} (n : Nat) (read : Reader α) (a : α) (layout : Layout) : Prop :=
  ∀ form, Spelled layout form → form.node.height ≤ n → read form.node = .ok a

/-- A layout that takes a container, however it is spelled. -/
def IsContainer : Layout → Prop
  | .tagged _ _ | .list _ | .record _ => True
  | .plain _ | .unit _ => False

theorem height_list_node (forms : List Form) :
    (Form.list forms).node.height = Node.itemsHeight (Form.itemNodes forms) + 1 := by
  rw [Form.node, Node.height]

theorem height_object_node (members : List (Literal × Form)) :
    (Form.object members).node.height = Node.membersHeight (Form.memberNodes members) + 1 := by
  rw [Form.node, Node.height]

theorem node_tagged (name : String) (form : Form) :
    (Form.tagged name form).node = .object [(.ok name, form.node)] .closed := by
  rw [Form.tagged, Form.node, Form.memberNodes, Form.memberNodes, Literal.reread_of]

theorem height_tagged (name : String) (form : Form) :
    (Form.tagged name form).node.height = form.node.height + 1 := by
  rw [node_tagged, Node.height, Node.membersHeight, Node.membersHeight, Nat.max_zero]

theorem Spelled.height_pos {layout : Layout} {form : Form} (h : Spelled layout form)
    (hcontainer : layout.IsContainer) : 0 < form.node.height := by
  cases h with
  | plain | name | noContent => exact hcontainer.elim
  | tagged h =>
    rw [height_tagged]
    exact Nat.succ_pos _
  | list h | fieldList h =>
    rw [height_list_node]
    exact Nat.succ_pos _
  | fieldObject h =>
    rw [height_object_node]
    exact Nat.succ_pos _

namespace Reads

variable {α β : Type} {n : Nat} {read : Reader α} {a : α} {layout : Layout}

theorem plain {j : Json} (h : read (node j) = .ok a) : Reads n read a (.plain j) := by
  intro form hform _
  cases hform
  rwa [Form.node_ofJson]

theorem map (f : α → β) (h : Reads n read a layout) :
    Reads n (fun node => (read node).map f) (f a) layout := by
  intro form hform hroom
  show (read form.node).map f = _
  rw [h form hform hroom]
  rfl

/-- What takes a container is not `null`. -/
theorem some (h : Reads n read a layout) (hcontainer : layout.IsContainer) :
    Reads n (Json.optional read) (some a) layout := by
  intro form hform hroom
  -- A node of some height is neither `null` nor a broken one.
  have hpos := hform.height_pos hcontainer
  have hread := h form hform hroom
  have hoptional : Json.optional read form.node = (read form.node).map Option.some := by
    cases hnode : form.node with
    | list | object => rfl
    | _ =>
      rw [hnode, Node.height] at hpos
      exact absurd hpos (Nat.lt_irrefl 0)
  rw [hoptional, hread]
  rfl

section variants

variable {variants : List (Variant α)} {name : String}

/-- A variant without content is read from its name, and with `null`. -/
theorem unit (hfind : Variant.find variants name = .ok (.unit a)) :
    Reads n (choice variants (decide (0 < n))) a (.unit name) := by
  intro form hform hroom
  cases hform with
  | name =>
    rw [Form.node_ofJson, node]
    show (Variant.find variants name >>= Variant.bare) = _
    rw [hfind]
    rfl
  | noContent =>
    rw [height_tagged] at hroom
    rw [decide_eq_true (show 0 < n by omega), node_tagged, choice_tagged hfind, Form.node_ofJson,
      node]
    rfl

/-- A variant with content takes a container, and then its content is read. -/
theorem tagged {content : Content α} (hfind : Variant.find variants name = .ok content)
    (h : Reads (n - 1) (Variant.filled · content) a layout) :
    Reads n (choice variants (decide (0 < n))) a (.tagged name layout) := by
  intro form hform hroom
  cases hform with
  | tagged hform =>
    rw [height_tagged] at hroom
    rw [decide_eq_true (show 0 < n by omega), node_tagged, choice_tagged hfind]
    exact h _ hform (by omega)

end variants

end Reads

theorem readItems_of_spelled {α : Type} {n : Nat} {read : Reader α} {layout : α → Layout} :
    ∀ {items : List α} {forms : List Form}, (∀ a ∈ items, Reads n read a (layout a)) →
      SpelledItems (items.map layout) forms →
        Node.itemsHeight (Form.itemNodes forms) ≤ n →
          readItems read (Form.itemNodes forms) = .ok items
  | [], forms, _, h, _ => by
    cases h
    rw [Form.itemNodes]
    rfl
  | item :: items, forms, hreads, h, hroom => by
    obtain ⟨hitem, hitems⟩ := List.forall_mem_cons.mp hreads
    cases h with
    | cons hform hforms =>
      rw [Form.itemNodes, Node.itemsHeight, Nat.max_le] at hroom
      rw [Form.itemNodes, readItems, hitem _ hform hroom.1,
        readItems_of_spelled hitems hforms hroom.2]
      rfl

/-- A list is read item by item, with room for one container less. -/
theorem Reads.list {α : Type} {layout : α → Layout} (read : Nat → Reader α)
    (readList : Nat → Reader (List α))
    (hsucc : ∀ k node, readList (k + 1) node = listOf (Option.some (read k)) node)
    {items : List α} (h : ∀ a ∈ items, ∀ k, Reads k (read k) a (layout a)) (n : Nat) :
    Reads n (readList n) items (.list (items.map layout)) := by
  intro form hform hroom
  cases hform with
  | list hforms =>
    rw [height_list_node] at hroom
    cases n with
    | zero => omega
    | succ k =>
      have hitems := readItems_of_spelled (fun a ha => h a ha k) hforms (by omega)
      rw [hsucc, Form.node, listOf, hitems]
      rfl

/-! ## Section 3: Records -/

/-- The fields of a record are read from the spellings of these layouts, with
    room for so many containers in each of them. -/
inductive Matches (n : Nat) : {γ : Type} → Fields γ → List (String × Option Layout) → γ → Prop where
  /-- No field is left. -/
  | nil : Matches n .nil [] ()
  /-- A field with a value, and the others of other names. -/
  | given {α β : Type} {name : String} {read : Reader α} {presence : Presence α} {rest : Fields β}
      {layout : Layout} {fields : List (String × Option Layout)} {a : α} {b : β}
      (hread : Reads n read a layout) (hname : name ∉ fields.map Prod.fst)
      (hrest : Matches n rest fields b) :
      Matches n (.cons name read presence none rest) ((name, some layout) :: fields) (a, b)
  /-- A field without a value, and the others of other names. -/
  | absent {α β : Type} {name : String} {read : Reader α} {rest : Fields β}
      {fields : List (String × Option Layout)} {b : β} (hname : name ∉ fields.map Prod.fst)
      (hrest : Matches n rest fields b) :
      Matches n (.maybe name read rest) ((name, none) :: fields) (none, b)

theorem node_null : (Form.ofJson .null).node = .null := by
  rw [Form.node_ofJson, node]

/-- Fields that are kept have names of fields. -/
theorem Kept.ne_of_mem {fields : List (String × Option Layout)} {kept : List (Literal × Form)}
    (h : Kept fields kept) {name : String} (hname : name ∉ fields.map Prod.fst) :
    ∀ member ∈ Form.memberNodes kept, member.1 ≠ .ok name := by
  induction fields generalizing kept with
  | nil =>
    cases h
    rw [Form.memberNodes]
    exact List.forall_mem_nil _
  | cons field fields ih =>
    rw [List.map_cons, List.mem_cons, not_or] at hname
    obtain ⟨hfirst, hname⟩ := hname
    have hkey : ∀ {key : String}, name ≠ key → (Literal.of key).reread ≠ .ok name := by
      intro key hne heq
      rw [Literal.reread_of] at heq
      exact hne (Except.ok.inj heq).symm
    cases h with
    | given _ hrest | absent hrest =>
      rw [Form.memberNodes]
      exact List.forall_mem_cons.mpr ⟨hkey hfirst, ih hrest hname⟩
    | leftOut hrest => exact ih hrest hname

variable {γ : Type} {n : Nat} {fields : Fields γ} {layouts : List (String × Option Layout)} {v : γ}

theorem Matches.names_eq (h : Matches n fields layouts v) :
    fields.names = layouts.map Prod.fst := by
  induction h with
  | nil => rfl
  | given _ _ _ ih => rw [Fields.names, ih, List.map_cons]
  | absent _ _ ih => rw [Fields.maybe, Fields.names, ih, List.map_cons]

/-- The fields are read from the items of a list. -/
theorem Matches.readList (h : Matches n fields layouts v) {forms : List Form}
    (hforms : SpelledFields layouts forms) (hroom : Node.itemsHeight (Form.itemNodes forms) ≤ n)
    (wanted : String) (count : Nat) :
    fields.readList wanted count (Form.itemNodes forms) .closed = .ok v := by
  induction h generalizing forms count with
  | nil =>
    cases hforms
    rw [Form.itemNodes]
    rfl
  | given hread _ _ ih =>
    cases hforms with
    | given hform hforms =>
      rw [Form.itemNodes, Node.itemsHeight, Nat.max_le] at hroom
      rw [Form.itemNodes, Fields.readList, hread _ hform hroom.1]
      show (Fields.readList wanted (count + 1) _ _ _ >>= fun others => .ok (_, others)) = _
      rw [ih hforms hroom.2]
      rfl
  | absent _ _ ih =>
    cases hforms with
    | absent hforms =>
      rw [Form.itemNodes, Node.itemsHeight, Nat.max_le] at hroom
      rw [Form.itemNodes, node_null, Fields.maybe, Fields.readList]
      show (Fields.readList wanted (count + 1) _ _ _ >>= fun others => .ok (_, others)) = _
      rw [ih hforms hroom.2]
      rfl

/-- The fields are read from the members that are kept. -/
theorem Matches.readValues (h : Matches n fields layouts v) {kept : List (Literal × Form)}
    (hkept : Kept layouts kept) (hroom : ∀ member ∈ kept, member.2.node.height ≤ n) :
    fields.readValues (Form.memberNodes kept) = .ok v := by
  induction h generalizing kept with
  | nil =>
    cases hkept
    rw [Form.memberNodes]
    rfl
  | given hread hname _ ih =>
    cases hkept with
    | given hform hkept =>
      obtain ⟨hfirst, hroom⟩ := List.forall_mem_cons.mp hroom
      rw [Form.memberNodes, Literal.reread_of, Fields.readValues_cons (hkept.ne_of_mem hname),
        hread _ hform hfirst, ih hkept hroom]
      rfl
  | absent hname _ ih =>
    rw [Fields.maybe]
    cases hkept with
    | absent hkept =>
      obtain ⟨-, hroom⟩ := List.forall_mem_cons.mp hroom
      rw [Form.memberNodes, Literal.reread_of, Fields.readValues_cons (hkept.ne_of_mem hname),
        node_null, ih hkept hroom]
      rfl
    | leftOut hkept =>
      rw [Fields.readValues_cons_of_notMem (hkept.ne_of_mem hname) (.inl rfl), ih hkept hroom]
      rfl

/-- The order of the members does not matter, and unknown fields with scalar
    values are passed over. -/
theorem readValues_of_perm {kept unknown members : List (Literal × Form)}
    (h : fields.readValues (Form.memberNodes kept) = .ok v)
    (hunknown : ∀ member ∈ unknown,
      ∃ key s, member.1.reread = .ok key ∧ key ∉ fields.names ∧ member.2 = .scalar s)
    (hperm : members.Perm (kept ++ unknown)) :
    fields.readValues (Form.memberNodes members) = .ok v := by
  obtain ⟨filled, hfilled, hvalues⟩ := Fields.readValues_eq_ok.mp h
  -- The unknown fields may stand behind the others, as they are passed over.
  have hpassed : ∀ member ∈ Form.memberNodes unknown,
      ∃ key, member.1 = .ok key ∧ key ∉ fields.names ∧ pass member.2 = .ok () := by
    rw [Form.memberNodes_eq_map, List.forall_mem_map]
    intro member hmember
    obtain ⟨key, s, hkey, hname, hscalar⟩ := hunknown member hmember
    obtain ⟨token, hleaf, -⟩ := s.exists_leaf
    refine ⟨key, hkey, hname, ?_⟩
    rw [hscalar, Form.node]
    exact hleaf.pass_eq_ok
  -- From there on only the order is another.
  have hordered := Fields.readObject_append_unknown hfilled hpassed
  have hnodes : (Form.memberNodes kept ++ Form.memberNodes unknown).Perm
      (Form.memberNodes members) := by
    rw [Form.memberNodes_eq_map, Form.memberNodes_eq_map, Form.memberNodes_eq_map,
      ← List.map_append]
    exact (hperm.map _).symm
  exact Fields.readValues_eq_ok.mpr ⟨filled, Fields.readObject_perm hnodes hordered, hvalues⟩

/-- A record is read from all its spellings, with room for one container less
    in its fields. -/
theorem Reads.record (h : Matches n fields layouts v) {title : String} :
    Reads (n + 1) (Json.record title (Option.some fields)) v (.record layouts) := by
  intro form hform hroom
  cases hform with
  | fieldList hforms =>
    rw [height_list_node, Nat.add_le_add_iff_right] at hroom
    rw [Form.node]
    exact h.readList hforms hroom _ 0
  | @fieldObject _ kept unknown members hkept hunknown hperm =>
    rw [height_object_node, Nat.add_le_add_iff_right, Node.membersHeight_le_iff,
      Form.memberNodes_eq_map, List.forall_mem_map] at hroom
    -- In the order of the fields, the members that are kept give the values.
    have hvalues := h.readValues hkept fun member hmember =>
      hroom member (hperm.mem_iff.mpr (List.mem_append_left _ hmember))
    rw [Form.node, record_object]
    refine readValues_of_perm hvalues ?_ hperm
    rw [h.names_eq]
    exact hunknown

end Layout

end BlockFlow.Json
