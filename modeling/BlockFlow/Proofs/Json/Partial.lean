import BlockFlow.Proofs.Json.Layout
import BlockFlow.Proofs.Lowering.Lowered
import Mathlib.Data.List.Forall2

/-! # Partial records

    A record all of whose fields have defaults may be written in part.

    - A form gives a value for a field as the member of that name or, if it is
      a list, as the item in its place (`Form.Gives`). What is read is what is
      given, and the defaults for the rest (`resolved_of_record`).
    - An object that can be read may be written differently: in another order,
      with unknown fields (`record_of_rewritten`), and with values that are
      read alike (`Fields.readObject_of_alike`).
    - Dictionaries and lists of texts are read as they are spelled. -/

namespace BlockFlow.Json

/-! ## Section 1: Records with defaults -/

/-- What a record gives for a field: the member of that name, or the item in
    its place. -/
inductive Form.Gives (names : List String) : Form → String → Form → Prop where
  /-- By name. -/
  | member {key : Literal} {members : List (Literal × Form)} {name : String} {value : Form}
      (hmem : (key, value) ∈ members) (hkey : key.reread = .ok name) :
      Gives names (.object members) name value
  /-- By place. -/
  | item {i : Nat} {items : List Form} {name : String} {value : Form}
      (hname : names[i]? = some name) (hitem : items[i]? = some value) :
      Gives names (.list items) name value

namespace Fields

/-- Every field has a default and a name of its own, and none is filled. -/
inductive AllDefaulted : {γ : Type} → Fields γ → Prop where
  /-- No field. -/
  | nil : AllDefaulted .nil
  /-- A field, and the others of other names. -/
  | cons {α β : Type} {name : String} {read : Reader α} {absent : α} {rest : Fields β}
      (hname : name ∉ rest.names) (hrest : AllDefaulted rest) :
      AllDefaulted (.defaulted name read absent rest)

/-- The values of the fields are those that are given, and else the defaults. -/
def Resolved (given : String → Node → Prop) : {γ : Type} → Fields γ → γ → Prop
  | _, .nil, _ => True
  | _, .cons name read presence _ rest, v =>
    (∀ node, given name node → read node = .ok v.1) ∧
      ((∀ node, ¬given name node) → presence = .defaulted v.1) ∧ rest.Resolved given v.2

variable {γ : Type} {fields filled : Fields γ} {members : List (Except Fault String × Node)} {v : γ}
  {given given' : String → Node → Prop}

/-- Only what is given for the names of the fields matters. -/
theorem Resolved.congr : ∀ {γ : Type} {fields : Fields γ} {v : γ}, Resolved given fields v →
    (∀ name ∈ fields.names, ∀ node, given name node ↔ given' name node) →
      Resolved given' fields v
  | _, .nil, _, _, _ => trivial
  | _, .cons name read presence value rest, v, h, hgiven => by
    obtain ⟨hread, habsent, hrest⟩ := h
    obtain ⟨hfirst, hothers⟩ := List.forall_mem_cons.mp hgiven
    refine ⟨fun node hnode => hread node ((hfirst node).mpr hnode), fun hnone => ?_,
      hrest.congr hothers⟩
    exact habsent fun node hnode => hnone node ((hfirst node).mp hnode)

/-- A field that is filled meets no other member of its name. -/
theorem ne_of_readObject_filled {α β : Type} {name : String} {read : Reader α}
    {presence : Presence α} {a : α} {rest : Fields β} {filled : Fields (α × β)}
    (h : (Fields.cons name read presence (some a) rest).readObject members = .ok filled) :
    ∀ member ∈ members, member.1 ≠ .ok name := by
  induction members generalizing rest with
  | nil => exact List.forall_mem_nil _
  | cons member members ih =>
    obtain ⟨next, ⟨key, hkey, htakes⟩, hnext⟩ := readObject_cons_eq_ok.mp h
    have hne : key ≠ name := by
      rintro rfl
      rcases htakes with hplace | ⟨hunknown, -⟩
      · rcases place_cons_eq_ok.mp hplace with ⟨-, hfull, -⟩ | ⟨hother, -⟩
        · cases hfull
        · exact hother rfl
      · exact hunknown List.mem_cons_self
    have hrest : ∃ rest', next = .cons name read presence (some a) rest' := by
      rcases htakes with hplace | ⟨-, -, rfl⟩
      · rcases place_cons_eq_ok.mp hplace with ⟨hsame, -⟩ | ⟨-, inner, -, rfl⟩
        · exact absurd hsame.symm hne
        · exact ⟨inner, rfl⟩
      · exact ⟨rest, rfl⟩
    obtain ⟨rest', rfl⟩ := hrest
    refine List.forall_mem_cons.mpr ⟨fun heq => hne ?_, ih hnext⟩
    exact Except.ok.inj (hkey.symm.trans heq)

/-- A field that a member gives is read from it alone. -/
theorem readValues_cons_of_mem {α β : Type} {name : String} {read : Reader α}
    {presence : Presence α} {rest : Fields β} {node : Node} {v : α × β}
    (hmem : (.ok name, node) ∈ members)
    (h : (Fields.cons name read presence none rest).readValues members = .ok v) :
    ∃ others, members.Perm ((.ok name, node) :: others) ∧
      (∀ member ∈ others, member.1 ≠ .ok name) ∧
        read node = .ok v.1 ∧ rest.readValues others = .ok v.2 := by
  obtain ⟨before, behind, rfl⟩ := List.append_of_mem hmem
  have hperm : (before ++ (.ok name, node) :: behind).Perm
      ((.ok name, node) :: (before ++ behind)) := List.perm_middle
  obtain ⟨filled, hfilled, hvalues⟩ := readValues_eq_ok.mp h
  have hfront := readObject_perm hperm hfilled
  have hothers : ∀ member ∈ before ++ behind, member.1 ≠ .ok name := by
    obtain ⟨next, ⟨key, hkey, htakes⟩, hnext⟩ := readObject_cons_eq_ok.mp hfront
    obtain rfl := Except.ok.inj hkey
    rcases htakes with hplace | ⟨hunknown, -⟩
    · rcases place_cons_eq_ok.mp hplace with ⟨-, -, a, -, rfl⟩ | ⟨hother, -⟩
      · exact ne_of_readObject_filled hnext
      · exact absurd rfl hother
    · exact absurd List.mem_cons_self hunknown
  have hread := readValues_eq_ok.mpr ⟨filled, hfront, hvalues⟩
  rw [readValues_cons hothers] at hread
  refine ⟨before ++ behind, hperm, hothers, ?_⟩
  cases hnode : read node with
  | error problem =>
    rw [hnode] at hread
    cases hread
  | ok a =>
    rw [hnode] at hread
    obtain ⟨b, hb, rfl⟩ := map_eq_ok_iff.mp hread
    exact ⟨rfl, hb⟩

/-- An object is read as what it gives by name. -/
theorem AllDefaulted.resolved_object (h : AllDefaulted fields)
    (hread : fields.readValues members = .ok v) :
    Resolved (fun name node => (.ok name, node) ∈ members) fields v := by
  induction h generalizing members with
  | nil => trivial
  | @cons _ _ name read absent rest hname hrest ih =>
    by_cases hmem : ∃ node, (.ok name, node) ∈ members
    · obtain ⟨node, hmem⟩ := hmem
      obtain ⟨others, hperm, hothers, hfirst, hvalues⟩ := readValues_cons_of_mem hmem hread
      refine ⟨fun node' hnode' => ?_, fun hnone => absurd hmem (hnone node), ?_⟩
      · -- It is the only member of its name.
        rcases List.mem_cons.mp (hperm.mem_iff.mp hnode') with heq | hother
        · cases heq
          exact hfirst
        · exact absurd rfl (hothers _ hother)
      · refine (ih hvalues).congr fun other hother node' => ?_
        have hne : other ≠ name := fun heq => hname (heq ▸ hother)
        simp [hperm.mem_iff, hne]
    · have hnone : ∀ member ∈ members, member.1 ≠ .ok name := by
        rintro ⟨key, node⟩ hmember rfl
        exact hmem ⟨node, hmember⟩
      rw [defaulted, readValues_cons_of_notMem hnone (.inr rfl)] at hread
      obtain ⟨b, hb, rfl⟩ := map_eq_ok_iff.mp hread
      exact ⟨fun node hnode => absurd ⟨node, hnode⟩ hmem, fun _ => rfl, ih hb⟩

/-- A list is read as what it gives by place. -/
theorem AllDefaulted.resolved_list (h : AllDefaulted fields) {wanted : String} {count : Nat}
    {items : List Node} (hread : fields.readList wanted count items .closed = .ok v) :
    Resolved (fun name node => ∃ i : Nat, fields.names[i]? = some name ∧ items[i]? = some node)
      fields v := by
  induction h generalizing items count with
  | nil => trivial
  | @cons _ _ name read absent rest hname hrest ih =>
    have hplace : ∀ {i : Nat}, (defaulted name read absent rest).names[i]? = some name →
        i = 0 := by
      intro i hi
      cases i with
      | zero => rfl
      | succ i =>
        have hrest : rest.names[i]? = some name := hi
        exact absurd (List.mem_of_getElem? hrest) hname
    cases items with
    | nil =>
      obtain ⟨b, hb, rfl⟩ := map_eq_ok_iff.mp (show (rest.readList wanted count [] .closed).map
        (absent, ·) = .ok _ from hread)
      refine ⟨?_, fun _ => rfl, (ih hb).congr ?_⟩
      · rintro node ⟨i, -, hi⟩
        cases hi
      · intro other _ node
        simp
    | cons item items =>
      have hread : (read item >>= fun a =>
          (rest.readList wanted (count + 1) items .closed).map (a, ·)) = .ok _ := hread
      cases hitem : read item with
      | error problem =>
        rw [hitem] at hread
        cases hread
      | ok a =>
        rw [hitem] at hread
        obtain ⟨b, hb, rfl⟩ := map_eq_ok_iff.mp hread
        refine ⟨?_, fun hnone => absurd ⟨0, rfl, rfl⟩ (hnone item), (ih hb).congr ?_⟩
        · rintro node ⟨i, hi, hnode⟩
          obtain rfl := hplace hi
          cases hnode
          exact hitem
        · intro other hother node
          constructor
          · rintro ⟨i, hi, hnode⟩
            exact ⟨i + 1, hi, hnode⟩
          · rintro ⟨i, hi, hnode⟩
            cases i with
            | zero =>
              cases hi
              exact absurd hother hname
            | succ i => exact ⟨i, hi, hnode⟩

end Fields

theorem Form.itemNodes_eq_map (items : List Form) :
    Form.itemNodes items = items.map Form.node := by
  induction items with
  | nil => rw [Form.itemNodes, List.map_nil]
  | cons item items ih => rw [Form.itemNodes, ih, List.map_cons]

/-- **A partial record** holds what is given, and else the defaults. -/
theorem resolved_of_record {γ : Type} {title : String} {fields : Fields γ} {form : Form} {v : γ}
    (hfields : fields.AllDefaulted) (h : record title (some fields) form.node = .ok v) :
    Fields.Resolved (fun name node => ∃ value, form.Gives fields.names name value ∧
      value.node = node) fields v := by
  cases form with
  | scalar s =>
    rw [Form.node] at h
    obtain ⟨token, hleaf, -⟩ := s.exists_leaf
    generalize s.node = node at h hleaf
    cases hleaf <;> cases h
  | list items =>
    rw [Form.node] at h
    refine (hfields.resolved_list h).congr fun name _ node => ?_
    rw [Form.itemNodes_eq_map]
    constructor
    · rintro ⟨i, hname, hitem⟩
      rw [List.getElem?_map, Option.map_eq_some_iff] at hitem
      obtain ⟨value, hvalue, hnode⟩ := hitem
      exact ⟨value, .item hname hvalue, hnode⟩
    · rintro ⟨value, hgives, rfl⟩
      cases hgives with
      | item hname hitem =>
        refine ⟨_, hname, ?_⟩
        rw [List.getElem?_map, hitem, Option.map_some]
  | object members =>
    rw [Form.node, record_object] at h
    refine (hfields.resolved_object h).congr fun name _ node => ?_
    rw [Form.memberNodes_eq_map, List.mem_map]
    constructor
    · rintro ⟨⟨key, value⟩, hmem, heq⟩
      obtain ⟨hkey, hnode⟩ := Prod.mk.inj heq
      exact ⟨value, .member hmem hkey, hnode⟩
    · rintro ⟨value, hgives, rfl⟩
      cases hgives with
      | member hmem hkey => exact ⟨_, hmem, Prod.ext hkey rfl⟩

/-- What is given for the first of the fields, and the others. -/
theorem Fields.Resolved.first_and_rest {α β : Type} {given : String → Form → Prop} {name : String}
    {read : Reader α} {absent : α} {rest : Fields β} {v : α × β}
    (h : Fields.Resolved (fun name node => ∃ value, given name value ∧ value.node = node)
      (.defaulted name read absent rest) v) :
    (∀ value, given name value → read value.node = .ok v.1) ∧
      ((∀ value, ¬given name value) → v.1 = absent) ∧
        Fields.Resolved (fun name node => ∃ value, given name value ∧ value.node = node) rest
          v.2 := by
  obtain ⟨hgiven, habsent, hrest⟩ := h
  refine ⟨fun value hvalue => hgiven _ ⟨value, hvalue, rfl⟩, fun hnone => ?_, hrest⟩
  have hdefault := habsent (by
    rintro node ⟨value, hvalue, -⟩
    exact hnone value hvalue)
  exact (Presence.defaulted.inj hdefault).symm

/-! ## Section 2: Records written differently -/

namespace Fields

variable {γ : Type} {fields filled : Fields γ} {members : List (Except Fault String × Node)}

/-- A node can be read by the field of a name if another one can be, with the
    same value. -/
def ReadsAs (key : String) (node node' : Node) : {γ : Type} → Fields γ → Prop
  | _, .nil => True
  | _, .cons name read _ _ rest =>
    (name = key → ∀ a, read node = .ok a → read node' = .ok a) ∧ rest.ReadsAs key node node'

variable {key : String} {node node' : Node}

theorem ReadsAs.place_eq : ∀ {γ : Type} {fields placed : Fields γ},
    fields.ReadsAs key node node' → fields.place key node = some (.ok placed) →
      fields.place key node' = some (.ok placed)
  | _, .nil, _, _, h => by cases h
  | _, .cons name read presence value rest, _, hreads, h => by
    obtain ⟨hread, hrest⟩ := hreads
    rcases place_cons_eq_ok.mp h with ⟨hkey, hvalue, a, ha, rfl⟩ | ⟨hkey, inner, hinner, rfl⟩
    · exact place_cons_eq_ok.mpr (.inl ⟨hkey, hvalue, a, hread hkey a ha, rfl⟩)
    · exact place_cons_eq_ok.mpr (.inr ⟨hkey, inner, hrest.place_eq hinner, rfl⟩)

/-- Members that are taken in do not change how others are read. -/
theorem ReadsAs.of_place {key' : String} {other : Node} : ∀ {γ : Type} {fields placed : Fields γ},
    fields.ReadsAs key node node' → fields.place key' other = some (.ok placed) →
      placed.ReadsAs key node node'
  | _, .nil, _, _, h => by cases h
  | _, .cons name read presence value rest, _, hreads, h => by
    obtain ⟨hread, hrest⟩ := hreads
    rcases place_cons_eq_ok.mp h with ⟨-, -, a, -, rfl⟩ | ⟨-, inner, hinner, rfl⟩
    · exact ⟨hread, hrest⟩
    · exact ⟨hread, hrest.of_place hinner⟩

/-- Members that may stand for each other: the same one, or two values of one
    field that are read alike. -/
def Alike (fields : Fields γ) (member member' : Except Fault String × Node) : Prop :=
  member = member' ∨ ∃ key ∈ fields.names, member.1 = .ok key ∧ member'.1 = .ok key ∧
    fields.ReadsAs key member.2 member'.2

variable {next : Fields γ} {member member' other : Except Fault String × Node}
  {members' : List (Except Fault String × Node)}

theorem Alike.of_takes (h : fields.Alike member member') (htakes : Takes other fields next) :
    next.Alike member member' := by
  have hnames := htakes.names_eq
  refine h.imp_right ?_
  rintro ⟨key, hname, hkey, hkey', hreads⟩
  refine ⟨key, hnames ▸ hname, hkey, hkey', ?_⟩
  obtain ⟨_, _, hplace | ⟨-, -, rfl⟩⟩ := htakes
  · exact hreads.of_place hplace
  · exact hreads

theorem Alike.takes (h : fields.Alike member member') (htakes : Takes member fields next) :
    Takes member' fields next := by
  rcases h with rfl | ⟨key, hname, hkey, hkey', hreads⟩
  · exact htakes
  · obtain ⟨first, hfirst, htakes⟩ := htakes
    obtain rfl := Except.ok.inj (hkey.symm.trans hfirst)
    rcases htakes with hplace | ⟨hunknown, -⟩
    · exact ⟨key, hkey', .inl (hreads.place_eq hplace)⟩
    · exact absurd hname hunknown

/-- Values of fields may be replaced by others that are read alike. -/
theorem readObject_of_alike (hmembers : List.Forall₂ fields.Alike members members')
    (h : fields.readObject members = .ok filled) : fields.readObject members' = .ok filled := by
  induction members generalizing members' fields with
  | nil =>
    cases hmembers
    exact h
  | cons member members ih =>
    cases hmembers with
    | cons hmember hrest =>
      obtain ⟨next, htakes, hnext⟩ := readObject_cons_eq_ok.mp h
      have hrest : List.Forall₂ next.Alike members _ := hrest.imp fun _ _ h => h.of_takes htakes
      exact readObject_cons_eq_ok.mpr ⟨next, hmember.takes htakes, ih hrest hnext⟩

end Fields

/-- An object with its members in another order, and with unknown fields that
    have scalar values. -/
inductive Form.Rewritten (names : List String) : Form → Form → Prop where
  /-- The members and the unknown fields are shuffled. -/
  | object {members unknown members' : List (Literal × Form)}
      (hunknown : ∀ member ∈ unknown,
        ∃ key s, member.1.reread = .ok key ∧ key ∉ names ∧ member.2 = .scalar s)
      (hperm : members'.Perm (members ++ unknown)) :
      Rewritten names (.object members) (.object members')

/-- A record that is rewritten is read alike. -/
theorem record_of_rewritten {γ : Type} {title : String} {fields : Fields γ} {form form' : Form}
    {v : γ} (h : record title (some fields) form.node = .ok v)
    (hform : form.Rewritten fields.names form') :
    record title (some fields) form'.node = .ok v := by
  cases hform with
  | object hunknown hperm =>
    rw [Form.node, record_object] at h ⊢
    exact Layout.readValues_of_perm h hunknown hperm

/-! ## Section 3: Dictionaries and lists of texts -/

/-- A form that spells a dictionary of texts, in order. -/
def Form.SpellsPairs (form : Form) (pairs : List (String × String)) : Prop :=
  ∃ members, form = .object members ∧ List.Forall₂ (fun (member : Literal × Form) pair =>
    member.1.reread = .ok pair.1 ∧ member.2.node = .string pair.2) members pairs

/-- A form that spells a list of texts. -/
def Form.SpellsTexts (form : Form) (texts : List String) : Prop :=
  ∃ items, form = .list items ∧
    List.Forall₂ (fun (item : Form) text => item.node = .string text) items texts

theorem text_eq_ok_iff {node : Node} {s : String} : Json.text node = .ok s ↔ node = .string s := by
  cases node <;> simp [Json.text]

theorem keyText_eq_ok_iff {key : Except Fault String} {s : String} :
    keyText key = .ok s ↔ key = .ok s := by
  cases key <;> simp [keyText]

theorem forall₂_of_readItems {items : List Form} {texts : List String}
    (h : readItems Json.text (Form.itemNodes items) = .ok texts) :
    List.Forall₂ (fun (item : Form) text => item.node = .string text) items texts := by
  induction items generalizing texts with
  | nil =>
    rw [Form.itemNodes] at h
    obtain rfl := Except.ok.inj h
    exact .nil
  | cons item items ih =>
    rw [Form.itemNodes] at h
    obtain ⟨first, hfirst, h⟩ := exists_of_bind_eq_ok h
    obtain ⟨rest, hrest, h⟩ := exists_of_bind_eq_ok h
    obtain rfl := Except.ok.inj h
    exact .cons (text_eq_ok_iff.mp hfirst) (ih hrest)

theorem forall₂_of_readMembers {members : List (Literal × Form)} {pairs : List (String × String)}
    (h : readMembers Json.text (Form.memberNodes members) = .ok pairs) :
    List.Forall₂ (fun (member : Literal × Form) pair =>
      member.1.reread = .ok pair.1 ∧ member.2.node = .string pair.2) members pairs := by
  induction members generalizing pairs with
  | nil =>
    rw [Form.memberNodes] at h
    obtain rfl := Except.ok.inj h
    exact .nil
  | cons member members ih =>
    obtain ⟨key, value⟩ := member
    rw [Form.memberNodes] at h
    obtain ⟨name, hname, h⟩ := exists_of_bind_eq_ok h
    obtain ⟨first, hfirst, h⟩ := exists_of_bind_eq_ok h
    obtain ⟨rest, hrest, h⟩ := exists_of_bind_eq_ok h
    obtain rfl := Except.ok.inj h
    exact .cons ⟨keyText_eq_ok_iff.mp hname, text_eq_ok_iff.mp hfirst⟩ (ih hrest)

theorem Form.spellsTexts_of_listOf {form : Form} {texts : List String}
    (h : listOf (some Json.text) form.node = .ok texts) : form.SpellsTexts texts := by
  cases form with
  | scalar s =>
    obtain ⟨token, hleaf, -⟩ := s.exists_leaf
    rw [Form.node] at h
    generalize s.node = node at h hleaf
    cases hleaf <;> cases h
  | object members =>
    rw [Form.node] at h
    cases h
  | list items =>
    rw [Form.node] at h
    obtain ⟨texts', hitems, h⟩ := exists_of_bind_eq_ok h
    obtain rfl := Except.ok.inj h
    exact ⟨items, rfl, forall₂_of_readItems hitems⟩

theorem Form.spellsPairs_of_membersOf {form : Form} {pairs : List (String × String)}
    (h : membersOf (some Json.text) form.node = .ok pairs) : form.SpellsPairs pairs := by
  cases form with
  | scalar s =>
    obtain ⟨token, hleaf, -⟩ := s.exists_leaf
    rw [Form.node] at h
    generalize s.node = node at h hleaf
    cases hleaf <;> cases h
  | list items =>
    rw [Form.node] at h
    cases h
  | object members =>
    rw [Form.node] at h
    obtain ⟨pairs', hmembers, h⟩ := exists_of_bind_eq_ok h
    obtain rfl := Except.ok.inj h
    exact ⟨members, rfl, forall₂_of_readMembers hmembers⟩

end BlockFlow.Json
