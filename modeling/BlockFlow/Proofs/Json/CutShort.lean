import BlockFlow.Proofs.Json.Remnant
import BlockFlow.Proofs.Json.RoundTrip

/-! # Programs whose text breaks off

    A program is written as JSON text, and the text is cut off behind any of its
    characters. Then it is refused as cut short, and for no other reason: no
    field is missing, no variant unknown and no number bad before the end is
    noticed.

    - `CutSafe read j` says that a reader of the value `j` reads whatever is left
      of it, or finds it cut short. It is shown for each way to put readers
      together, and then for expressions and statements by recursion.
    - Where there is no room for a container, the reader reports its depth. So
      the readers are given room for the whole value (`Readable`), as in the
      round trip.
    - Whatever is left of the object that is the program itself, it is not
      closed, and so it is not read (`Program.read_ne_ok`). -/

namespace BlockFlow

open Json (Remnant RemnantItems RemnantMembers Fields height)

namespace Json

/-! ## Section 1: Readings that can only be cut short -/

/-- If the reading fails, then the text is cut short. -/
def OnlyCut {α : Type} (r : Except Problem α) : Prop :=
  ∀ problem, r = .error problem → problem.kind = .cutShort

namespace OnlyCut

variable {α β : Type} {r : Except Problem α}

theorem ok (a : α) : OnlyCut (.ok a) := by
  intro problem h
  cases h

theorem error {problem : Problem} (h : problem.kind = .cutShort) :
    OnlyCut (.error problem : Except Problem α) := by
  intro other hother
  obtain rfl := Except.error.inj hother
  exact h

theorem bind {f : α → Except Problem β} (h : OnlyCut r) (hf : ∀ a, r = .ok a → OnlyCut (f a)) :
    OnlyCut (r >>= f) := by
  cases r with
  | error problem => exact .error (h problem rfl)
  | ok a => exact hf a rfl

theorem map (f : α → β) (h : OnlyCut r) : OnlyCut (r.map f) := by
  cases r with
  | error problem => exact .error (h problem rfl)
  | ok a => exact .ok (f a)

end OnlyCut

/-- Whatever is left of the value is read, or found to be cut short. -/
def CutSafe {α : Type} (read : Reader α) (j : Json) : Prop :=
  ∀ node, Remnant j node → OnlyCut (read node)

theorem CutSafe.map {α β : Type} {read : Reader α} {j : Json} (h : CutSafe read j) (f : α → β) :
    CutSafe (fun node => (read node).map f) j :=
  fun node hnode => (h node hnode).map f

/-! ## Section 2: Plain values -/

theorem cutSafe_text (s : String) : CutSafe text (.string s) := by
  intro node h
  cases h with
  | nothing => exact .error rfl
  | string => exact .ok s
  | cutString => exact .error rfl

theorem cutSafe_flag (b : Bool) : CutSafe flag (.bool b) := by
  intro node h
  cases h with
  | nothing => exact .error rfl
  | bool => exact .ok b
  | cutBool => exact .error rfl

theorem cutSafe_double (n : Number) : CutSafe double (.number n) := by
  intro node h
  cases h with
  | nothing => exact .error rfl
  | @number _ m _ => exact .ok m.toDouble
  | cutNumber => exact .error rfl

theorem cutSafe_int64 (n : Int64) : CutSafe int64 (.number (.ofInt64 n)) := by
  intro node h
  cases h with
  | nothing => exact .error rfl
  | number hleaves =>
    -- What is left is no larger, so it fits as well.
    obtain ⟨k, fits, rfl, hle⟩ := hleaves
    have hlt : n.toInt < 0x8000000000000000 := n.toInt_lt
    show OnlyCut (if k < 0x8000000000000000 then _ else _)
    rw [if_pos (by omega)]
    exact .ok _
  | cutNumber => exact .error rfl

/-- What may be `null` and is not. -/
theorem CutSafe.optional_some {α : Type} {read : Reader α} {j : Json} (h : CutSafe read j) :
    CutSafe (optional read) j := by
  intro node hnode
  unfold optional
  split
  · exact .ok none
  · cases hnode with
    | cutNull => exact .error rfl
  · exact (h _ hnode).map some

/-- What may be `null` and is. -/
theorem cutSafe_optional_none {α : Type} {read : Reader α}
    (h : ∀ region passing, OnlyCut (read (.broken .nothing (.cutShort region) passing))) :
    CutSafe (optional read) .null := by
  intro node hnode
  cases hnode with
  | nothing _ region passing => exact (h region passing).map some
  | null => exact .ok none
  | cutNull => exact .error rfl

/-! ## Section 3: Lists and records -/

theorem RemnantItems.onlyCut_ending {items : List Json} {nodes : List Node} {ending : Ending}
    (h : RemnantItems items nodes ending) : OnlyCut (check ending.listProblem?) := by
  induction items generalizing nodes with
  | nil =>
    cases h with
    | closed => exact .ok ()
    | cut => exact .error rfl
  | cons item items ih =>
    cases h with
    | cut => exact .error rfl
    | comma => exact .error rfl
    | cons _ hrest => exact ih hrest

theorem onlyCut_readItems {α : Type} {read : Reader α} {items : List Json}
    (h : ∀ j ∈ items, CutSafe read j) {nodes : List Node} {ending : Ending}
    (hnodes : RemnantItems items nodes ending) : OnlyCut (readItems read nodes) := by
  induction items generalizing nodes with
  | nil => cases hnodes <;> exact .ok []
  | cons item items ih =>
    obtain ⟨hitem, h⟩ := List.forall_mem_cons.mp h
    cases hnodes with
    | cut => exact .ok []
    | comma => exact .ok []
    | cons hnode hrest =>
      rw [readItems]
      exact (hitem _ hnode).bind fun _ _ => (ih h hrest).bind fun _ _ => .ok _

theorem cutSafe_listOf {α : Type} {read : Reader α} {items : List Json}
    (h : ∀ j ∈ items, CutSafe read j) : CutSafe (listOf (some read)) (.list items) := by
  intro node hnode
  cases hnode with
  | nothing => exact .error rfl
  | list hnodes =>
    rw [listOf]
    exact (onlyCut_readItems h hnodes).bind fun _ _ => hnodes.onlyCut_ending.bind fun _ _ => .ok _

namespace Fields

/-- The members of an object are the fields of a record in their order, and
    what is left of each of them is read or found to be cut short. -/
inductive Safe : {γ : Type} → Fields γ → List (String × Json) → Prop where
  /-- No field is left. -/
  | nil : Safe .nil []
  /-- A field, and the others of other names. -/
  | cons {α β : Type} {name : String} {read : Reader α} {presence : Presence α} {rest : Fields β}
      {j : Json} {members : List (String × Json)} (hread : CutSafe read j)
      (hname : name ∉ members.map Prod.fst) (hrest : Safe rest members) :
      Safe (.cons name read presence none rest) ((name, j) :: members)

end Fields

theorem RemnantMembers.ne_of_mem {name : String} {members : List (String × Json)}
    (hname : name ∉ members.map Prod.fst) {nodes : List (Except Fault String × Node)}
    {ending : Ending} (h : RemnantMembers members nodes ending) :
    ∀ member ∈ nodes, member.1 ≠ .ok name := by
  induction members generalizing nodes with
  | nil => cases h <;> exact List.forall_mem_nil _
  | cons member members ih =>
    rw [List.map_cons, List.mem_cons, not_or] at hname
    obtain ⟨hkey, hname⟩ := hname
    cases h with
    | cut => exact List.forall_mem_nil _
    | comma => exact List.forall_mem_nil _
    | key => exact List.forall_mem_nil _
    | cons _ hrest =>
      exact List.forall_mem_cons.mpr ⟨fun h => hkey (Except.ok.inj h).symm, ih hname hrest⟩

/-- Fields are read one after another, whatever the ending of the object. -/
theorem record_object_cons {α β : Type} {title name : String} {read : Reader α}
    {presence : Presence α} {node : Node} {nodes : List (Except Fault String × Node)}
    (hname : ∀ member ∈ nodes, member.1 ≠ .ok name) (rest : Fields β) (ending : Ending) :
    record title (some (.cons name read presence none rest))
        (.object ((.ok name, node) :: nodes) ending) =
      (read node >>= fun a => (record title (some rest) (.object nodes ending)).map (a, ·)) := by
  simp only [record, Fields.readObject_cons hname]
  cases read node with
  | error problem => rfl
  | ok a =>
    cases rest.readObject nodes with
    | error problem => rfl
    | ok filled => cases check ending.objectProblem? <;> rfl

/-- The members that are left are read, and then the ending is looked at before
    any field is missing. -/
theorem Fields.Safe.onlyCut_record {γ : Type} {title : String} {fields : Fields γ}
    {members : List (String × Json)} (h : fields.Safe members)
    {nodes : List (Except Fault String × Node)} {ending : Ending}
    (hnodes : RemnantMembers members nodes ending) :
    OnlyCut (record title (some fields) (.object nodes ending)) := by
  induction h generalizing nodes with
  | nil =>
    cases hnodes with
    | closed => exact .ok ()
    | cut => exact .error rfl
  | cons hread hname _ ih =>
    cases hnodes with
    | cut => exact .error rfl
    | comma => exact .error rfl
    | key => exact .error rfl
    | cons hnode hrest =>
      rw [record_object_cons (hrest.ne_of_mem hname)]
      exact (hread _ hnode).bind fun a _ => (ih hrest).map (a, ·)

theorem cutSafe_record {γ : Type} {title : String} {fields : Fields γ}
    {members : List (String × Json)} (h : fields.Safe members) :
    CutSafe (record title (some fields)) (.object members) := by
  intro node hnode
  cases hnode with
  | nothing => exact .error rfl
  | object hnodes => exact h.onlyCut_record hnodes

/-! ## Section 4: Choices -/

/-- A variant without content. -/
theorem cutSafe_unit {α : Type} {variants : List (Variant α)} {name : String} {a : α}
    (hfind : Variant.find variants name = .ok (.unit a)) (room : Bool) :
    CutSafe (choice variants room) (.string name) := by
  intro node h
  cases h with
  | nothing => exact .error rfl
  | string =>
    show OnlyCut (Variant.find variants name >>= Variant.bare)
    rw [hfind]
    exact .ok a
  | cutString => exact .error rfl

/-- A variant with content, where there is room for it. -/
theorem cutSafe_tagged {α : Type} {variants : List (Variant α)} {name : String}
    {content : Content α} (hfind : Variant.find variants name = .ok content) {j : Json}
    (h : CutSafe (fun node => Variant.filled node content) j) :
    CutSafe (choice variants true) (.tagged name j) := by
  intro node hnode
  cases hnode with
  | nothing => exact .error rfl
  | @object _ _ ending hnodes =>
    cases hnodes with
    | cut => exact .error rfl
    | comma => exact .error rfl
    | key => exact .error rfl
    | @cons _ _ node _ nodes _ hnode hrest =>
      show OnlyCut (Variant.find variants name >>= fun content =>
        Variant.filled node content >>= fun value =>
          check (Variant.leftOver nodes ending) >>= fun _ => .ok value)
      rw [hfind]
      refine (h node hnode).bind fun value _ => ?_
      cases hrest with
      | closed => exact .ok value
      | cut => exact .error rfl

end Json

open Json (CutSafe)

/-! ## Section 5: Room for values -/

/-- A variant with content is safe where there is room for it, if its content is
    safe with room for one container less. -/
theorem cutSafe_choice {α : Type} {variants : List (Json.Variant α)} {name : String}
    {content : Json.Content α} (hfind : Json.Variant.find variants name = .ok content) {n : Nat}
    {j : Json} {floats : List Double}
    (h : Readable (n - 1) j floats → CutSafe (fun node => Json.Variant.filled node content) j)
    (hreadable : Readable n (.tagged name j) floats) :
    CutSafe (Json.choice variants (decide (0 < n))) (.tagged name j) := by
  obtain ⟨hroom, hinside⟩ := readable_tagged.mp hreadable
  rw [hroom]
  exact Json.cutSafe_tagged hfind (h hinside)

/-- A list is safe where there is room for it, if its items are safe with room
    for one container less. -/
theorem cutSafe_list {α : Type} {write : α → Json} {floats : α → List Double}
    (read : Nat → Json.Reader α) (readList : Nat → Json.Reader (List α))
    (hsucc : ∀ k, readList (k + 1) = Json.listOf (some (read k))) {items : List α}
    (h : ∀ a ∈ items, ∀ k, Readable k (write a) (floats a) → CutSafe (read k) (write a)) (n : Nat)
    (hreadable : Readable n (.list (items.map write)) (items.flatMap floats)) :
    CutSafe (readList n) (.list (items.map write)) := by
  obtain ⟨hheight, hfinite⟩ := hreadable
  rw [height] at hheight
  obtain ⟨k, rfl⟩ := Nat.exists_eq_succ_of_ne_zero (show n ≠ 0 by omega)
  rw [hsucc]
  refine Json.cutSafe_listOf (List.forall_mem_map.mpr fun a ha => h a ha k ⟨?_, fun x hx => ?_⟩)
  · exact itemsHeight_map_le_iff.mp (Nat.le_of_succ_le_succ hheight) a ha
  · exact hfinite x (List.mem_flatMap.mpr ⟨a, ha, hx⟩)

/-- The members with these doubles are the fields of a record, and are safe
    where there is room for so many containers in each of them. -/
def SafeAt (n : Nat) {γ : Type} (fields : Fields γ) (members : List (String × Json))
    (floats : List Double) : Prop :=
  Json.membersHeight members ≤ n → (∀ x ∈ floats, x.isFinite = true) → fields.Safe members

namespace SafeAt

theorem nil (n : Nat) : SafeAt n .nil [] [] := fun _ _ => .nil

theorem cons {n : Nat} {α β : Type} {name : String} {read : Json.Reader α}
    {presence : Json.Presence α} {rest : Fields β} {j : Json} {members : List (String × Json)}
    {floats more : List Double} (hread : Readable n j floats → CutSafe read j)
    (hname : name ∉ members.map Prod.fst) (hrest : SafeAt n rest members more) :
    SafeAt n (.cons name read presence none rest) ((name, j) :: members) (floats ++ more) := by
  intro hheight hfinite
  rw [Json.membersHeight, Nat.max_le] at hheight
  obtain ⟨hfloats, hmore⟩ := List.forall_mem_append.mp hfinite
  exact .cons (hread ⟨hheight.1, hfloats⟩) hname (hrest hheight.2 hmore)

/-- A field that takes no container and holds no double. -/
theorem plain {n : Nat} {α β : Type} {name : String} {read : Json.Reader α}
    {presence : Json.Presence α} {rest : Fields β} {j : Json} {members : List (String × Json)}
    {more : List Double} (hread : CutSafe read j) (hname : name ∉ members.map Prod.fst)
    (hrest : SafeAt n rest members more) :
    SafeAt n (.cons name read presence none rest) ((name, j) :: members) more := by
  intro hheight hmore
  rw [Json.membersHeight, Nat.max_le] at hheight
  exact .cons hread hname (hrest hheight.2 hmore)

end SafeAt

/-- A variant with fields is safe where its fields are safe with room for two
    containers less. -/
theorem cutSafe_withFields {α γ : Type} {variants : List (Json.Variant α)} {type name : String}
    {n : Nat} {fields : Parts → Fields γ} {make : γ → α} {members : List (String × Json)}
    {floats more : List Double}
    (hfind : Json.Variant.find variants name =
      .ok (withFields type name (Parts.inside n) fields make).content)
    (hsafe : ∀ k, SafeAt k (fields (Parts.withRoom k)) members more) (hfloats : floats = more)
    (hreadable : Readable n (.tagged name (.object members)) floats) :
    CutSafe (Json.choice variants (decide (0 < n))) (.tagged name (.object members)) := by
  subst hfloats
  refine cutSafe_choice hfind (fun hinside => ?_) hreadable
  obtain ⟨hheight, hfinite⟩ := hinside
  rw [height] at hheight
  match n with
  | 0 | 1 => omega
  | n + 2 =>
    have hfields := hsafe n (Nat.le_of_succ_le_succ hheight) hfinite
    exact (Json.cutSafe_record hfields).map make

/-! ## Section 6: Scalars, operators and names -/

theorem Double.cutSafe_ofDouble {x : Double} (hfinite : x.isFinite = true) :
    CutSafe Json.double (.ofDouble x) := by
  rw [show Json.ofDouble x = .number (.real x hfinite) from dif_pos hfinite]
  exact Json.cutSafe_double _

theorem Value.cutSafe_toJson (v : Value) (n : Nat) (h : Readable n v.toJson v.floats) :
    CutSafe (Value.read n) v.toJson := by
  cases v with
  | null => exact Json.cutSafe_unit rfl _
  | integer m =>
    refine cutSafe_choice rfl (fun _ => ?_) h
    exact (Json.cutSafe_int64 m).map Value.integer
  | float x =>
    have hfinite := h.2 x List.mem_cons_self
    refine cutSafe_choice rfl (fun _ => ?_) h
    exact (Double.cutSafe_ofDouble hfinite).map Value.float
  | string s =>
    refine cutSafe_choice rfl (fun _ => ?_) h
    exact (Json.cutSafe_text s).map Value.string
  | bool b =>
    refine cutSafe_choice rfl (fun _ => ?_) h
    exact (Json.cutSafe_flag b).map Value.bool

theorem BinaryOp.cutSafe_name (op : BinaryOp) (parts : Parts) :
    CutSafe parts.binaryOp (.string op.name) := by
  have hfind : Json.Variant.find (unitVariants BinaryOp.all BinaryOp.name) op.name =
      .ok (.unit op) := by cases op <;> rfl
  exact Json.cutSafe_unit hfind _

theorem UnaryOp.cutSafe_name (op : UnaryOp) (parts : Parts) :
    CutSafe parts.unaryOp (.string op.name) := by
  have hfind : Json.Variant.find (unitVariants UnaryOp.all UnaryOp.name) op.name =
      .ok (.unit op) := by cases op <;> rfl
  exact Json.cutSafe_unit hfind _

theorem CallMode.cutSafe_name (mode : CallMode) (parts : Parts) :
    CutSafe parts.mode (.string mode.name) := by
  have hfind : Json.Variant.find (unitVariants CallMode.all CallMode.name) mode.name =
      .ok (.unit mode) := by cases mode <;> rfl
  exact Json.cutSafe_unit hfind _

theorem cutSafe_names (names : List String) (n : Nat)
    (h : Readable n (.list (names.map Json.string)) []) :
    CutSafe (Parts.withRoom n).names (.list (names.map Json.string)) := by
  have hnone : names.flatMap (fun _ => ([] : List Double)) = [] := by simp
  rw [← hnone] at h
  exact cutSafe_list (fun _ => Json.text) (fun n => (Parts.withRoom n).names) (fun _ => rfl)
    (fun name _ _ _ => Json.cutSafe_text name) n h

/-! ## Section 7: Expressions and statements -/

theorem Expr.cutSafe_list {es : List Expr}
    (h : ∀ e ∈ es, ∀ k, Readable k e.toJson e.floats → CutSafe (Expr.read k) e.toJson) (n : Nat)
    (hreadable : Readable n (.list (Expr.listToJson es)) (Expr.listFloats es)) :
    CutSafe (Expr.readList n) (.list (Expr.listToJson es)) := by
  rw [Expr.listToJson_eq_map] at hreadable ⊢
  rw [Expr.listFloats_eq_flatMap] at hreadable
  exact BlockFlow.cutSafe_list Expr.read Expr.readList
    (fun k => funext fun _ => by rw [Expr.readList]) h n hreadable

theorem Stmt.cutSafe_list {ss : List Stmt}
    (h : ∀ s ∈ ss, ∀ k, Readable k s.toJson s.floats → CutSafe (Stmt.read k) s.toJson) (n : Nat)
    (hreadable : Readable n (.list (Stmt.listToJson ss)) (Stmt.listFloats ss)) :
    CutSafe (Stmt.readList n) (.list (Stmt.listToJson ss)) := by
  rw [Stmt.listToJson_eq_map] at hreadable ⊢
  rw [Stmt.listFloats_eq_flatMap] at hreadable
  exact BlockFlow.cutSafe_list Stmt.read Stmt.readList
    (fun k => funext fun _ => by rw [Stmt.readList]) h n hreadable

/-- Where no test has begun, that is what a reader of tests reports. -/
theorem Expr.cutSafe_none (n : Nat) : CutSafe (Json.optional (Expr.read n)) .null := by
  refine Json.cutSafe_optional_none fun region passing => ?_
  rw [Expr.read_eq]
  exact .error rfl

theorem Stmt.cutSafe_none (n : Nat) : CutSafe (Json.optional (Stmt.readList n)) .null := by
  refine Json.cutSafe_optional_none fun region passing => ?_
  cases n <;> rw [Stmt.readList] <;> exact .error rfl

/-- A statement with content takes a container, so there is room for one. -/
theorem Stmt.cutSafe_tagged {n : Nat} {name : String} {j : Json} {floats : List Double}
    (h : Readable n (.tagged name j) floats →
      CutSafe (Json.choice (Stmt.variants (Expr.read (n - 1)) (Parts.inside n)) (decide (0 < n)))
        (.tagged name j))
    (hreadable : Readable n (.tagged name j) floats) : CutSafe (Stmt.read n) (.tagged name j) := by
  have hsafe := h hreadable
  cases n with
  | zero => exact absurd (readable_tagged.mp hreadable).1 (by decide)
  | succ n =>
    rw [Stmt.read_succ]
    exact hsafe

theorem Expr.read_eq_choice (n : Nat) :
    Expr.read n =
      Json.choice (Expr.variants (Value.read (n - 1)) (Parts.inside n)) (decide (0 < n)) :=
  funext (Expr.read_eq n)

-- As in the round trip, every case names the variant and goes through its fields
-- in their order.
mutual

/-- What is left of an expression is read, or found to be cut short. -/
theorem Expr.cutSafe_toJson :
    ∀ (e : Expr) (n : Nat), Readable n e.toJson e.floats → CutSafe (Expr.read n) e.toJson
  | .literal v, n => by
    rw [Expr.toJson, Expr.floats, Expr.read_eq_choice]
    refine cutSafe_choice rfl fun h => ?_
    exact (v.cutSafe_toJson (n - 1) h).map Expr.literal
  | .ident name, n => by
    rw [Expr.toJson, Expr.floats, Expr.read_eq_choice]
    refine cutSafe_choice rfl fun _ => ?_
    exact (Json.cutSafe_text name).map Expr.ident
  | .binary op left right, n => by
    have hleft := left.cutSafe_toJson
    have hright := right.cutSafe_toJson
    rw [Expr.toJson, Expr.floats, Expr.read_eq_choice]
    exact cutSafe_withFields rfl
      (fun k => .plain (op.cutSafe_name _) (by simp) <| .cons (hleft k) (by simp) <|
        .cons (hright k) (by simp) <| .nil k)
      (by simp)
  | .unary op arg, n => by
    have harg := arg.cutSafe_toJson
    rw [Expr.toJson, Expr.floats, Expr.read_eq_choice]
    exact cutSafe_withFields rfl
      (fun k => .plain (op.cutSafe_name _) (by simp) <| .cons (harg k) (by simp) <| .nil k)
      (by simp)
  | .call callee args mode, n => by
    have hcallee := callee.cutSafe_toJson
    have hargs := Expr.cutSafe_list (Expr.cutSafe_listToJson args)
    rw [Expr.toJson, Expr.floats, Expr.read_eq_choice]
    exact cutSafe_withFields rfl
      (fun k => .cons (hcallee k) (by simp) <| .cons (hargs k) (by simp) <|
        .plain (mode.cutSafe_name _) (by simp) <| .nil k)
      (by simp)
  | .member object property, n => by
    have hobject := object.cutSafe_toJson
    rw [Expr.toJson, Expr.floats, Expr.read_eq_choice]
    exact cutSafe_withFields rfl
      (fun k => .cons (hobject k) (by simp) <|
        .plain (Json.cutSafe_text property) (by simp) <| .nil k)
      (by simp)
  | .closure params body isAsync, n => by
    have hbody := Stmt.cutSafe_list (Stmt.cutSafe_listToJson body)
    rw [Expr.toJson, Expr.floats, Expr.read_eq_choice]
    exact cutSafe_withFields rfl
      (fun k => .cons (cutSafe_names params k) (by simp) <| .cons (hbody k) (by simp) <|
        .plain (Json.cutSafe_flag isAsync) (by simp) <| .nil k)
      (by simp)

/-- The same for each of the expressions of a list. -/
theorem Expr.cutSafe_listToJson :
    ∀ es : List Expr, ∀ e ∈ es, ∀ n, Readable n e.toJson e.floats →
      CutSafe (Expr.read n) e.toJson
  | [] => List.forall_mem_nil _
  | first :: es => List.forall_mem_cons.mpr ⟨first.cutSafe_toJson, Expr.cutSafe_listToJson es⟩

/-- What is left of a statement is read, or found to be cut short. -/
theorem Stmt.cutSafe_toJson :
    ∀ (s : Stmt) (n : Nat), Readable n s.toJson s.floats → CutSafe (Stmt.read n) s.toJson
  | .cond test body none, n => by
    have htest := test.cutSafe_toJson
    have hbody := Stmt.cutSafe_list (Stmt.cutSafe_listToJson body)
    rw [Stmt.toJson, Stmt.floats]
    exact Stmt.cutSafe_tagged <| cutSafe_withFields rfl
      (fun k => .cons (htest k) (by simp) <| .cons (hbody k) (by simp) <|
        .plain (Stmt.cutSafe_none k) (by simp) <| .nil k)
      (by simp)
  | .cond test body (some orElse), n => by
    have htest := test.cutSafe_toJson
    have hbody := Stmt.cutSafe_list (Stmt.cutSafe_listToJson body)
    have horElse := Stmt.cutSafe_list (Stmt.cutSafe_listToJson orElse)
    rw [Stmt.toJson, Stmt.floats]
    exact Stmt.cutSafe_tagged <| cutSafe_withFields rfl
      (fun k => .cons (htest k) (by simp) <| .cons (hbody k) (by simp) <|
        .cons (fun h => (horElse k h).optional_some) (by simp) <| .nil k)
      (by simp)
  | .forLoop init test update body, n => by
    have hinit := init.cutSafe_toJson
    have htest := test.cutSafe_toJson
    have hupdate := update.cutSafe_toJson
    have hbody := Stmt.cutSafe_list (Stmt.cutSafe_listToJson body)
    rw [Stmt.toJson, Stmt.floats]
    exact Stmt.cutSafe_tagged <| cutSafe_withFields rfl
      (fun k => .cons (hinit k) (by simp) <| .cons (htest k) (by simp) <|
        .cons (hupdate k) (by simp) <| .cons (hbody k) (by simp) <| .nil k)
      (by simp)
  | .whileLoop test body, n => by
    have htest := test.cutSafe_toJson
    have hbody := Stmt.cutSafe_list (Stmt.cutSafe_listToJson body)
    rw [Stmt.toJson, Stmt.floats]
    exact Stmt.cutSafe_tagged <| cutSafe_withFields rfl
      (fun k => .cons (htest k) (by simp) <| .cons (hbody k) (by simp) <| .nil k)
      (by simp)
  | .doWhile body test, n => by
    have hbody := Stmt.cutSafe_list (Stmt.cutSafe_listToJson body)
    have htest := test.cutSafe_toJson
    rw [Stmt.toJson, Stmt.floats]
    exact Stmt.cutSafe_tagged <| cutSafe_withFields rfl
      (fun k => .cons (hbody k) (by simp) <| .cons (htest k) (by simp) <| .nil k)
      (by simp)
  | .switch subject cases, n => by
    have hsubject := subject.cutSafe_toJson
    have hcases := Stmt.cutSafe_list (Stmt.cutSafe_listToJson cases)
    rw [Stmt.toJson, Stmt.floats]
    exact Stmt.cutSafe_tagged <| cutSafe_withFields rfl
      (fun k => .cons (hsubject k) (by simp) <| .cons (hcases k) (by simp) <| .nil k)
      (by simp)
  | .case none body, n => by
    have hbody := Stmt.cutSafe_list (Stmt.cutSafe_listToJson body)
    rw [Stmt.toJson, Stmt.floats]
    exact Stmt.cutSafe_tagged <| cutSafe_withFields rfl
      (fun k => .plain (Expr.cutSafe_none k) (by simp) <| .cons (hbody k) (by simp) <|
        .nil k)
      (by simp)
  | .case (some test) body, n => by
    have htest := test.cutSafe_toJson
    have hbody := Stmt.cutSafe_list (Stmt.cutSafe_listToJson body)
    rw [Stmt.toJson, Stmt.floats]
    exact Stmt.cutSafe_tagged <| cutSafe_withFields rfl
      (fun k => .cons (fun h => (htest k h).optional_some) (by simp) <|
        .cons (hbody k) (by simp) <| .nil k)
      (by simp)
  | .brk, n => by
    intro _
    rw [Stmt.toJson]
    -- A variant without content is named, whatever the room.
    cases n with
    | zero =>
      rw [Stmt.read_zero]
      exact Json.cutSafe_unit rfl _
    | succ n =>
      rw [Stmt.read_succ]
      exact Json.cutSafe_unit rfl _
  | .bind name init, n => by
    have hinit := init.cutSafe_toJson
    rw [Stmt.toJson, Stmt.floats]
    exact Stmt.cutSafe_tagged <| cutSafe_withFields rfl
      (fun k => .plain (Json.cutSafe_text name) (by simp) <| .cons (hinit k) (by simp) <|
        .nil k)
      (by simp)
  | .assign target value, n => by
    have htarget := target.cutSafe_toJson
    have hvalue := value.cutSafe_toJson
    rw [Stmt.toJson, Stmt.floats]
    exact Stmt.cutSafe_tagged <| cutSafe_withFields rfl
      (fun k => .cons (htarget k) (by simp) <| .cons (hvalue k) (by simp) <| .nil k)
      (by simp)
  | .expr e, n => by
    have he := e.cutSafe_toJson (n - 1)
    rw [Stmt.toJson, Stmt.floats]
    refine Stmt.cutSafe_tagged <| cutSafe_choice rfl fun h => ?_
    exact (he h).map Stmt.expr
  | .ret e, n => by
    have he := e.cutSafe_toJson (n - 1)
    rw [Stmt.toJson, Stmt.floats]
    refine Stmt.cutSafe_tagged <| cutSafe_choice rfl fun h => ?_
    exact (he h).map Stmt.ret

/-- The same for each of the statements of a list. -/
theorem Stmt.cutSafe_listToJson :
    ∀ ss : List Stmt, ∀ s ∈ ss, ∀ n, Readable n s.toJson s.floats →
      CutSafe (Stmt.read n) s.toJson
  | [] => List.forall_mem_nil _
  | first :: ss => List.forall_mem_cons.mpr ⟨first.cutSafe_toJson, Stmt.cutSafe_listToJson ss⟩

end

/-! ## Section 8: Programs -/

theorem Program.cutSafe_toJson (p : Program) (n : Nat) (h : Readable n p.toJson p.floats) :
    CutSafe (Program.read n) p.toJson := by
  obtain ⟨hheight, hfinite⟩ := h
  rw [Program.toJson, height] at hheight
  obtain ⟨n, rfl⟩ := Nat.exists_eq_succ_of_ne_zero (show n ≠ 0 by omega)
  have hbody := Stmt.cutSafe_list (Stmt.cutSafe_listToJson p.body)
  have hsafe : SafeAt n (Program.fields n) [("body", .list (Stmt.listToJson p.body))]
      (p.floats ++ []) := .cons (hbody n) (by simp) (.nil n)
  rw [List.append_nil] at hsafe
  have hfields := hsafe (Nat.le_of_succ_le_succ hheight) hfinite
  exact (Json.cutSafe_record hfields).map fun fields => Program.mk fields.1

theorem Json.Ending.exists_objectProblem {ending : Json.Ending} (h : ending ≠ .closed) :
    ∃ problem, ending.objectProblem? = some problem := by
  cases ending with
  | closed => exact absurd rfl h
  | _ => exact ⟨_, rfl⟩

/-- An object that is not closed is no record. -/
theorem Json.record_ne_ok {γ : Type} {title : String} {inside : Option (Fields γ)}
    {nodes : List (Except Fault String × Node)} {ending : Ending} (h : ending ≠ .closed)
    (value : γ) : record title inside (.object nodes ending) ≠ .ok value := by
  obtain ⟨problem, hproblem⟩ := Ending.exists_objectProblem h
  intro hread
  cases inside with
  | none => cases hread
  | some fields =>
    rw [record] at hread
    cases hobject : fields.readObject nodes with
    | error problem =>
      rw [hobject] at hread
      cases hread
    | ok filled =>
      rw [hobject, hproblem] at hread
      cases hread

/-- A program that is not complete is not read. -/
theorem Program.read_ne_ok {p : Program} {content : Json.Node} (h : Remnant p.toJson content)
    (hopen : content.IsOpen) (n : Nat) (q : Program) : Program.read n content ≠ .ok q := by
  intro hread
  obtain ⟨⟨body, _⟩, hrecord, -⟩ := map_eq_ok_iff.mp (show Except.map _ _ = _ from hread)
  cases h with
  | nothing => cases hrecord
  | object => exact Json.record_ne_ok hopen _ hrecord

/-- A text that breaks off is refused as cut short. -/
theorem Program.exists_cutShort {p : Program} (hfinite : ∀ x ∈ p.floats, x.isFinite = true)
    (hheight : height p.toJson ≤ Json.maxDepth) {style : Json.Style} (hstyle : style.Blank)
    {text : String} (htext : text.toList <+: Json.write style 0 p.toJson)
    (hne : text ≠ String.ofList (Json.write style 0 p.toJson)) :
    ∃ problem, Program.ofText text = .error (.json problem) ∧ problem.kind = .cutShort := by
  have hne : text.toList ≠ Json.write style 0 p.toJson := by
    intro h
    rw [← h, String.ofList_toList] at hne
    exact hne rfl
  obtain ⟨content, hdocument, hremnant, hopen⟩ :=
    Json.exists_remnant hstyle p.toJson htext hne
  rw [String.ofList_toList] at hdocument
  have hcut := p.cutSafe_toJson Json.maxDepth ⟨hheight, hfinite⟩ content hremnant
  cases hread : Program.read Json.maxDepth content with
  | ok q => exact absurd hread (Program.read_ne_ok hremnant hopen _ q)
  | error problem =>
    refine ⟨problem, ?_, hcut problem hread⟩
    rw [Program.ofText, Json.readText, hdocument, Json.Document.read, hread]
    rfl

/-- **A text that breaks off is recognised**: a program with finite doubles whose
    text nests at most 127 containers is written, compact or indented, and the
    text is cut off behind any character but the last. Then it is refused as cut
    short. -/
theorem Program.ofText_of_cut (p : Program) (hfinite : ∀ x ∈ p.floats, x.isFinite = true)
    (hnesting : Json.nesting p.toText ≤ 127) (text : String)
    (h : (text.toList <+: p.toText.toList ∧ text ≠ p.toText) ∨
      (text.toList <+: p.toIndentedText.toList ∧ text ≠ p.toIndentedText)) :
    ∃ problem, Program.ofText text = .error (.json problem) ∧ problem.kind = .cutShort := by
  have hheight : height p.toJson ≤ Json.maxDepth := by
    rw [← Json.nesting_written Json.Style.compact_blank p.toJson]
    exact hnesting
  rcases h with ⟨htext, hne⟩ | ⟨htext, hne⟩
  · rw [Program.toText, Json.compact, String.toList_ofList] at htext
    exact Program.exists_cutShort hfinite hheight Json.Style.compact_blank htext hne
  · rw [Program.toIndentedText, Json.indented, String.toList_ofList] at htext
    exact Program.exists_cutShort hfinite hheight Json.Style.indented_blank htext hne

theorem Program.ofText_of_cut_minus :
    let p : Program := ⟨[
      .expr (.call (.ident "f") [.literal (.integer (-12))] .plain),
      .ret (.literal (.float ⟨0x7FEFFFFFFFFFFFFF⟩))]⟩
    let text := "\x7b\"body\":[\x7b\"Expr\":\x7b\"Call\":\x7b" ++
      "\"callee\":\x7b\"Ident\":\"f\"\x7d,\"args\":[\x7b\"Literal\":\x7b\"Integer\":-"
    (∀ x ∈ p.floats, x.isFinite = true) ∧ Json.nesting p.toText ≤ 127 ∧
      ∃ problem, Program.ofText text = .error (.json problem) ∧ problem.kind = .cutShort := by
  intro p text
  have hfinite : ∀ x ∈ p.floats, x.isFinite = true := by decide
  have hnesting : Json.nesting p.toText = 8 :=
    Json.nesting_written Json.Style.compact_blank p.toJson
  have hwritten : p.toText.toList = Json.write .compact 0 p.toJson := String.toList_ofList
  have hpart : text.toList <+: p.toText.toList := by
    rw [hwritten]
    decide +kernel
  have hne : text ≠ p.toText := by
    intro h
    have hlast : text.toList ≠ Json.write .compact 0 p.toJson := by decide +kernel
    exact hlast (hwritten ▸ congrArg String.toList h)
  have hnesting : Json.nesting p.toText ≤ 127 := by omega
  exact ⟨hfinite, hnesting, Program.ofText_of_cut p hfinite hnesting text (.inl ⟨hpart, hne⟩)⟩

end BlockFlow
