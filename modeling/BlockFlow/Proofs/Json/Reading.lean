import BlockFlow.Json.Reader
import BlockFlow.Proofs.Json.Written

/-! # Reading what was written

    How the readers fare with the nodes of written values.

    - `ReadsIff cond a r` says that a reading `r` ends in `a` if the condition
      holds and in some error if not. Readings in a row collect their
      conditions (`ReadsIff.bind`), so the exact condition of a whole value is
      put together from those of its parts.
    - A record whose members stand in the order of its fields is read field
      by field (`Fields.Fit.reads`). In any other order it is read alike
      (`Fields.readObject_perm`), and members that are no fields change nothing.
    - A choice reads the content of the variant that is named
      (`ReadsIff.choice`). -/

namespace BlockFlow

theorem map_eq_ok_iff {ε α β : Type*} {r : Except ε α} {f : α → β} {b : β} :
    r.map f = .ok b ↔ ∃ a, r = .ok a ∧ f a = b := by
  cases r with
  | error e => simp [Except.map]
  | ok a => simp [Except.map]

namespace Json

/-! ## Section 1: Readings with their exact condition -/

/-- The reading ends in the value if the condition holds, else in an error. -/
def ReadsIff {α : Type} (cond : Prop) (a : α) (r : Except Problem α) : Prop :=
  (cond → r = .ok a) ∧ (¬cond → ∃ problem, r = .error problem)

namespace ReadsIff

variable {α β : Type} {cond cond' : Prop} {a : α} {b : β} {r : Except Problem α}

theorem of_ok (hcond : cond) (h : r = .ok a) : ReadsIff cond a r :=
  ⟨fun _ => h, fun hnot => absurd hcond hnot⟩

theorem of_error {problem : Problem} (hcond : ¬cond) (h : r = .error problem) : ReadsIff cond a r :=
  ⟨fun hc => absurd hc hcond, fun _ => ⟨problem, h⟩⟩

theorem congr (h : ReadsIff cond a r) (hcond : cond ↔ cond') : ReadsIff cond' a r := by
  rwa [propext hcond] at h

/-- Readings in a row need both conditions. -/
theorem bind {f : α → Except Problem β} (h : ReadsIff cond a r) (hf : ReadsIff cond' b (f a)) :
    ReadsIff (cond ∧ cond') b (r >>= f) := by
  by_cases hcond : cond
  · rw [h.1 hcond]
    exact hf.congr ⟨fun hc => ⟨hcond, hc⟩, fun hc => hc.2⟩
  · obtain ⟨problem, hr⟩ := h.2 hcond
    have hbind : (r >>= f) = .error problem := by
      rw [hr]
      rfl
    exact of_error (fun hc => hcond hc.1) hbind

theorem map (f : α → β) (h : ReadsIff cond a r) : ReadsIff cond (f a) (r.map f) := by
  refine ⟨fun hcond => ?_, fun hcond => ?_⟩
  · rw [h.1 hcond]
    rfl
  · obtain ⟨problem, hr⟩ := h.2 hcond
    refine ⟨problem, ?_⟩
    rw [hr]
    rfl

end ReadsIff

/-- A written text is read through the node of its value. -/
theorem readText_written {α : Type} (read : Reader α) {style : Style} (hstyle : style.Blank)
    (j : Json) : readText read (String.ofList (write style 0 j)) = read (node j) := by
  rw [readText, ofText_written hstyle, Document.read]
  cases read (node j) <;> rfl

/-! ## Section 2: Lists -/

theorem reads_items {α : Type} {read : Reader α} {write : α → Json} {cond : α → Prop}
    {items : List α} (h : ∀ a ∈ items, ReadsIff (cond a) a (read (node (write a)))) :
    ReadsIff (∀ a ∈ items, cond a) items (readItems read (itemNodes (items.map write))) := by
  induction items with
  | nil => exact .of_ok (List.forall_mem_nil _) rfl
  | cons first items ih =>
    obtain ⟨hfirst, hrest⟩ := List.forall_mem_cons.mp h
    rw [List.map_cons, itemNodes, readItems]
    refine (hfirst.bind ((ih hrest).map (first :: ·))).congr ?_
    exact List.forall_mem_cons.symm

/-- A list for which there is room is read item by item. -/
theorem reads_listOf {α : Type} {read : Reader α} {write : α → Json} {cond : α → Prop}
    {items : List α} (h : ∀ a ∈ items, ReadsIff (cond a) a (read (node (write a)))) :
    ReadsIff (∀ a ∈ items, cond a) items
      (listOf (some read) (node (.list (items.map write)))) := by
  have hitems := reads_items h
  rw [node]
  show ReadsIff _ _ (readItems read _ >>= fun values => .ok values)
  exact (hitems.bind (.of_ok trivial rfl)).congr (and_iff_left trivial)

/-! ## Section 3: Records -/

namespace Fields

/-- The members of an object are the fields of a record in their order, and
    each of them is read under a condition of its own. -/
inductive Fit : {γ : Type} → Fields γ → List (String × Json) → Prop → γ → Prop where
  /-- No field is left. -/
  | nil : Fit .nil [] True ()
  /-- A field, and the others of other names. -/
  | cons {α β : Type} {name : String} {read : Reader α} {presence : Presence α} {rest : Fields β}
      {j : Json} {members : List (String × Json)} {cond cond' : Prop} {a : α} {b : β}
      (hread : ReadsIff cond a (read (node j))) (hname : name ∉ members.map Prod.fst)
      (hrest : Fit rest members cond' b) :
      Fit (.cons name read presence none rest) ((name, j) :: members) (cond ∧ cond') (a, b)

theorem Fit.congr {γ : Type} {fields : Fields γ} {members : List (String × Json)}
    {cond cond' : Prop} {value : γ} (h : Fit fields members cond value) (hcond : cond ↔ cond') :
    Fit fields members cond' value := by
  rwa [propext hcond] at h

/-- Members of other names leave a field alone. -/
theorem readObject_cons_of_notMem {α β : Type} {name : String} {read : Reader α}
    {presence : Presence α} {value : Option α} {members : List (Except Fault String × Node)}
    (hname : ∀ member ∈ members, member.1 ≠ .ok name) (rest : Fields β) :
    (Fields.cons name read presence value rest).readObject members =
      (rest.readObject members).map (.cons name read presence value) := by
  induction members generalizing rest with
  | nil => rfl
  | cons member members ih =>
    obtain ⟨key, node⟩ := member
    obtain ⟨hkey, hname⟩ := List.forall_mem_cons.mp hname
    have ih := ih hname
    cases key with
    | error fault => rfl
    | ok key =>
      have hkey : name ≠ key := fun h => hkey (congrArg Except.ok h.symm)
      simp only [readObject, keyText, place, if_neg hkey]
      cases rest.place key node with
      | none =>
        -- The member is no field at all and is passed over.
        simp only [Option.map_none]
        cases pass node with
        | ok _ => exact ih rest
        | error problem => rfl
      | some placed =>
        -- The member is one of the fields behind this one.
        simp only [Option.map_some]
        cases placed with
        | ok placed => exact ih placed
        | error problem => rfl

/-- The values of a record that an object without faults holds. -/
def readValues {γ : Type} (fields : Fields γ) (members : List (Except Fault String × Node)) :
    Except Problem γ :=
  match fields.readObject members with
  | .error problem => .error problem
  | .ok filled => filled.values

theorem readValues_eq_ok {γ : Type} {fields : Fields γ}
    {members : List (Except Fault String × Node)} {v : γ} :
    fields.readValues members = .ok v ↔
      ∃ filled, fields.readObject members = .ok filled ∧ filled.values = .ok v := by
  rw [readValues]
  cases fields.readObject members <;> simp

/-- A field takes in its member, and the other members leave it alone. -/
theorem readObject_cons {α β : Type} {name : String} {read : Reader α} {presence : Presence α}
    {node : Node} {members : List (Except Fault String × Node)}
    (hname : ∀ member ∈ members, member.1 ≠ .ok name) (rest : Fields β) :
    (Fields.cons name read presence none rest).readObject ((.ok name, node) :: members) =
      (read node).bind fun a =>
        (rest.readObject members).map (Fields.cons name read presence (some a)) := by
  simp only [readObject, keyText, place, if_pos]
  cases read node with
  | error problem => rfl
  | ok a => exact readObject_cons_of_notMem hname rest

/-- Fields are read one after another. -/
theorem readValues_cons {α β : Type} {name : String} {read : Reader α} {presence : Presence α}
    {node : Node} {members : List (Except Fault String × Node)}
    (hname : ∀ member ∈ members, member.1 ≠ .ok name) (rest : Fields β) :
    (Fields.cons name read presence none rest).readValues ((.ok name, node) :: members) =
      (read node >>= fun a => (rest.readValues members).map (a, ·)) := by
  simp only [readValues, readObject_cons hname]
  cases read node with
  | error problem => rfl
  | ok a =>
    cases rest.readObject members with
    | error problem => rfl
    | ok filled => rfl

/-- A field that may be missing, and is. -/
theorem readValues_cons_of_notMem {α β : Type} {name : String} {read : Reader α}
    {presence : Presence α} {absent : α} {members : List (Except Fault String × Node)}
    (hname : ∀ member ∈ members, member.1 ≠ .ok name)
    (hpresence : presence = .optional absent ∨ presence = .defaulted absent) (rest : Fields β) :
    (Fields.cons name read presence none rest).readValues members =
      (rest.readValues members).map (absent, ·) := by
  rw [readValues, readValues, readObject_cons_of_notMem hname]
  cases rest.readObject members with
  | error problem => rfl
  | ok filled => rcases hpresence with rfl | rfl <;> rfl

theorem ne_of_mem_memberNodes {name : String} {members : List (String × Json)}
    (hname : name ∉ members.map Prod.fst) :
    ∀ member ∈ memberNodes members, member.1 ≠ .ok name := by
  induction members with
  | nil =>
    rw [memberNodes]
    exact List.forall_mem_nil _
  | cons member members ih =>
    rw [List.map_cons, List.mem_cons, not_or] at hname
    obtain ⟨hkey, hname⟩ := hname
    rw [memberNodes]
    exact List.forall_mem_cons.mpr ⟨fun h => hkey (Except.ok.inj h).symm, ih hname⟩

theorem Fit.reads {γ : Type} {fields : Fields γ} {members : List (String × Json)} {cond : Prop}
    {value : γ} (h : Fit fields members cond value) :
    ReadsIff cond value (fields.readValues (memberNodes members)) := by
  induction h with
  | nil => exact .of_ok trivial rfl
  | cons hread hname hrest ih =>
    rw [memberNodes, readValues_cons (ne_of_mem_memberNodes hname)]
    exact hread.bind (ih.map _)

end Fields

theorem record_object {γ : Type} {title : String} {fields : Fields γ}
    {members : List (Except Fault String × Node)} :
    record title (some fields) (.object members .closed) = fields.readValues members := by
  rw [record, Fields.readValues]
  cases fields.readObject members <;> rfl

/-- A record for which there is room is read field by field. -/
theorem reads_record {γ : Type} {title : String} {fields : Fields γ}
    {members : List (String × Json)} {cond : Prop} {value : γ}
    (h : Fields.Fit fields members cond value) :
    ReadsIff cond value (record title (some fields) (node (.object members))) := by
  rw [node, record_object]
  exact h.reads

/-! ## Section 4: Records in any order -/

namespace Fields

/-- The names of the fields. -/
def names : {γ : Type} → Fields γ → List String
  | _, .nil => []
  | _, .cons name _ _ _ rest => name :: rest.names

/-- How a field takes in a member: it is the one of that name, and empty, or
    one of the fields behind it takes in the member. -/
theorem place_cons_eq_ok {α β : Type} {name key : String} {read : Reader α}
    {presence : Presence α} {value : Option α} {rest : Fields β} {node : Node}
    {placed : Fields (α × β)} :
    (Fields.cons name read presence value rest).place key node = some (.ok placed) ↔
      (name = key ∧ value = none ∧ ∃ a, read node = .ok a ∧
        .cons name read presence (some a) rest = placed) ∨
      (name ≠ key ∧ ∃ inner, rest.place key node = some (.ok inner) ∧
        .cons name read presence value inner = placed) := by
  simp only [place]
  by_cases hkey : name = key
  · cases value with
    | some _ => simp [hkey]
    | none => simp [hkey, map_eq_ok_iff]
  · simp [hkey, map_eq_ok_iff]

theorem place_eq_none_iff {key : String} {node : Node} :
    ∀ {γ : Type} {fields : Fields γ}, fields.place key node = none ↔ key ∉ fields.names
  | _, .nil => by simp [place, names]
  | _, .cons name read presence value rest => by
    have ih : rest.place key node = none ↔ key ∉ rest.names := place_eq_none_iff
    simp only [place]
    by_cases hkey : name = key
    · simp [hkey, names]
    · simp [hkey, Ne.symm hkey, names, ih]

theorem names_of_place {key : String} {node : Node} :
    ∀ {γ : Type} {fields placed : Fields γ},
      fields.place key node = some (.ok placed) → placed.names = fields.names
  | _, .nil, _, h => by cases h
  | _, .cons name read presence value rest, placed, h => by
    rcases place_cons_eq_ok.mp h with ⟨-, -, a, -, rfl⟩ | ⟨-, inner, hinner, rfl⟩
    · rfl
    · rw [names, names, names_of_place hinner]

/-- Two members that are both taken in may change places. -/
theorem place_comm {key key' : String} {node node' : Node} :
    ∀ {γ : Type} {fields placed both : Fields γ},
      fields.place key node = some (.ok placed) → placed.place key' node' = some (.ok both) →
        ∃ placed', fields.place key' node' = some (.ok placed') ∧
          placed'.place key node = some (.ok both)
  | _, .nil, _, _, h, _ => by cases h
  | _, .cons name read presence value rest, placed, both, h, h' => by
    rcases place_cons_eq_ok.mp h with ⟨hkey, hvalue, a, ha, rfl⟩ | ⟨hkey, inner, hinner, rfl⟩
    · rcases place_cons_eq_ok.mp h' with ⟨-, hfull, -⟩ | ⟨hkey', inner', hinner', rfl⟩
      · -- A field takes in only one member.
        cases hfull
      · refine ⟨.cons name read presence value inner', ?_, ?_⟩
        · exact place_cons_eq_ok.mpr (.inr ⟨hkey', inner', hinner', rfl⟩)
        · exact place_cons_eq_ok.mpr (.inl ⟨hkey, hvalue, a, ha, rfl⟩)
    · rcases place_cons_eq_ok.mp h' with ⟨hkey', hvalue, a, ha, rfl⟩ | ⟨hkey', inner', hinner', rfl⟩
      · refine ⟨.cons name read presence (some a) rest, ?_, ?_⟩
        · exact place_cons_eq_ok.mpr (.inl ⟨hkey', hvalue, a, ha, rfl⟩)
        · exact place_cons_eq_ok.mpr (.inr ⟨hkey, inner, hinner, rfl⟩)
      · obtain ⟨swapped, hswapped, hboth⟩ := place_comm hinner hinner'
        refine ⟨.cons name read presence value swapped, ?_, ?_⟩
        · exact place_cons_eq_ok.mpr (.inr ⟨hkey', swapped, hswapped, rfl⟩)
        · exact place_cons_eq_ok.mpr (.inr ⟨hkey, inner', hboth, rfl⟩)

/-- One member of an object: a field takes it in, or it is none of the fields
    and passed over. -/
def Takes {γ : Type} (member : Except Fault String × Node) (fields filled : Fields γ) : Prop :=
  ∃ key, member.1 = .ok key ∧
    (fields.place key member.2 = some (.ok filled) ∨
      key ∉ fields.names ∧ pass member.2 = .ok () ∧ filled = fields)

variable {γ : Type} {fields filled next : Fields γ} {member member' : Except Fault String × Node}
  {members members' : List (Except Fault String × Node)}

theorem Takes.names_eq (h : Takes member fields filled) : filled.names = fields.names := by
  obtain ⟨key, -, hplace | ⟨-, -, rfl⟩⟩ := h
  · exact names_of_place hplace
  · rfl

theorem readObject_cons_eq_ok :
    fields.readObject (member :: members) = .ok filled ↔
      ∃ next, Takes member fields next ∧ next.readObject members = .ok filled := by
  obtain ⟨key, node⟩ := member
  cases key with
  | error fault => simp [readObject, keyText, Takes]
  | ok key =>
    have hknown : fields.place key node = none ↔ key ∉ fields.names := place_eq_none_iff
    simp only [readObject, keyText, Takes, Except.ok.injEq, exists_eq_left', ← hknown]
    cases fields.place key node with
    | none =>
      cases pass node with
      | ok _ => simp
      | error problem => simp
    | some placed =>
      cases placed with
      | ok placed => simp
      | error problem => simp

theorem Takes.comm (h : Takes member fields next) (h' : Takes member' next filled) :
    ∃ next', Takes member' fields next' ∧ Takes member next' filled := by
  -- Taking in a member changes no names, so what is passed over later could be
  -- passed over before.
  have hnames := h.names_eq
  obtain ⟨key, hkey, hplace | ⟨hkey', hpass, rfl⟩⟩ := h
  · obtain ⟨key', hkey', hplace' | ⟨hnone, hpass, rfl⟩⟩ := h'
    · obtain ⟨next', hfirst, hsecond⟩ := place_comm hplace hplace'
      exact ⟨next', ⟨key', hkey', .inl hfirst⟩, key, hkey, .inl hsecond⟩
    · rw [hnames] at hnone
      exact ⟨fields, ⟨key', hkey', .inr ⟨hnone, hpass, rfl⟩⟩, key, hkey, .inl hplace⟩
  · have hnames' := h'.names_eq
    refine ⟨filled, h', key, hkey, .inr ⟨?_, hpass, rfl⟩⟩
    rwa [hnames']

/-- **The order of the members does not matter** to a record that can be read. -/
theorem readObject_perm (hperm : members.Perm members')
    (h : fields.readObject members = .ok filled) : fields.readObject members' = .ok filled := by
  induction hperm generalizing fields with
  | nil => exact h
  | cons member _ ih =>
    obtain ⟨next, htakes, hrest⟩ := readObject_cons_eq_ok.mp h
    exact readObject_cons_eq_ok.mpr ⟨next, htakes, ih hrest⟩
  | swap member member' members =>
    obtain ⟨next, htakes, h⟩ := readObject_cons_eq_ok.mp h
    obtain ⟨both, htakes', hrest⟩ := readObject_cons_eq_ok.mp h
    obtain ⟨next', hfirst, hsecond⟩ := htakes.comm htakes'
    exact readObject_cons_eq_ok.mpr
      ⟨next', hfirst, readObject_cons_eq_ok.mpr ⟨both, hsecond, hrest⟩⟩
  | trans _ _ ih ih' => exact ih' (ih h)

/-- Members that are no fields change nothing. -/
theorem readObject_unknown
    (h : ∀ member ∈ members, ∃ key, member.1 = .ok key ∧ key ∉ fields.names ∧
      pass member.2 = .ok ()) :
    fields.readObject members = .ok fields := by
  induction members with
  | nil => rfl
  | cons member members ih =>
    obtain ⟨⟨key, hkey, hnone, hpass⟩, h⟩ := List.forall_mem_cons.mp h
    exact readObject_cons_eq_ok.mpr ⟨fields, ⟨key, hkey, .inr ⟨hnone, hpass, rfl⟩⟩, ih h⟩

/-- Members that are no fields may stand behind the others. -/
theorem readObject_append_unknown (h : fields.readObject members = .ok filled)
    (hunknown : ∀ member ∈ members', ∃ key, member.1 = .ok key ∧ key ∉ fields.names ∧
      pass member.2 = .ok ()) :
    fields.readObject (members ++ members') = .ok filled := by
  induction members generalizing fields with
  | nil =>
    obtain rfl := Except.ok.inj h
    exact readObject_unknown hunknown
  | cons member members ih =>
    obtain ⟨next, htakes, hrest⟩ := readObject_cons_eq_ok.mp h
    rw [← htakes.names_eq] at hunknown
    exact readObject_cons_eq_ok.mpr ⟨next, htakes, ih hrest hunknown⟩

end Fields

/-! ## Section 5: Choices -/

/-- Where there is room, a variant with content is read as its content. -/
theorem choice_tagged {α : Type} {variants : List (Variant α)} {name : String}
    {content : Content α} (hfind : Variant.find variants name = .ok content) (child : Node) :
    Json.choice variants true (.object [(.ok name, child)] .closed) =
      Variant.filled child content := by
  show (Variant.find variants name >>= fun content => Variant.filled child content >>= fun value =>
    .ok value) = _
  rw [hfind]
  show (Variant.filled child content >>= fun value => .ok value) = _
  cases Variant.filled child content <;> rfl

/-- A variant with content takes a container, and then its content is read. -/
theorem ReadsIff.choice {α : Type} {variants : List (Variant α)} {name : String}
    {content : Content α} (hfind : Variant.find variants name = .ok content) {j : Json}
    {cond : Prop} {a : α} (h : ReadsIff cond a (Variant.filled (node j) content)) (room : Bool) :
    ReadsIff (room = true ∧ cond) a (Json.choice variants room (node (.object [(name, j)]))) := by
  rw [node, memberNodes, memberNodes]
  cases room with
  | false =>
    have hdeep : Json.choice variants false (.object [(.ok name, node j)] .closed) =
        .error (.malformed .tooDeep) := rfl
    exact ReadsIff.of_error (by simp) hdeep
  | true =>
    rw [choice_tagged hfind]
    exact h.congr (by simp)

end Json

end BlockFlow
