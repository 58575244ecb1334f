import BlockFlow.Program.Codec
import BlockFlow.Proofs.Json.Reading

/-! # Programs survive JSON, and which of them

    A program that is written as JSON text is read back as it was if its
    doubles are finite and its text nests at most `maxDepth` containers. In
    every other case the text is refused: it is never read as some other
    program.

    - A double that is not finite is written as `null`, which no reader of
      doubles accepts.
    - Every reader is told how many containers there is room for, and every
      container takes one. The induction carries the exact condition
      (`Readable`): the value is no higher than the room.

    Reading a decimal rounds more than once, so that a finite double is read
    back as itself is an assumption (`Double.ReadsBack`), made for the doubles
    of the program at hand. -/

namespace BlockFlow

open Json (node height ReadsIff Fields)

/-! ## Section 1: The doubles of a program -/

/-- The double of a value, if it is one. -/
def Value.floats : Value → List Double
  | .float x => [x]
  | .null | .integer _ | .string _ | .bool _ => []

mutual

/-- The doubles of an expression. -/
def Expr.floats : Expr → List Double
  | .literal v => v.floats
  | .ident _ => []
  | .binary _ left right => left.floats ++ right.floats
  | .unary _ arg => arg.floats
  | .call callee args _ => callee.floats ++ Expr.listFloats args
  | .member object _ => object.floats
  | .closure _ body _ => Stmt.listFloats body

/-- The doubles of expressions. -/
def Expr.listFloats : List Expr → List Double
  | [] => []
  | e :: es => e.floats ++ Expr.listFloats es

/-- The doubles of a statement. -/
def Stmt.floats : Stmt → List Double
  | .cond test body none => test.floats ++ Stmt.listFloats body
  | .cond test body (some orElse) =>
    test.floats ++ (Stmt.listFloats body ++ Stmt.listFloats orElse)
  | .forLoop init test update body =>
    init.floats ++ (test.floats ++ (update.floats ++ Stmt.listFloats body))
  | .whileLoop test body => test.floats ++ Stmt.listFloats body
  | .doWhile body test => Stmt.listFloats body ++ test.floats
  | .switch subject cases => subject.floats ++ Stmt.listFloats cases
  | .case none body => Stmt.listFloats body
  | .case (some test) body => test.floats ++ Stmt.listFloats body
  | .brk => []
  | .bind _ init => init.floats
  | .assign target value => target.floats ++ value.floats
  | .expr e => e.floats
  | .ret e => e.floats

/-- The doubles of statements. -/
def Stmt.listFloats : List Stmt → List Double
  | [] => []
  | s :: ss => s.floats ++ Stmt.listFloats ss

end

/-- The doubles of a program. -/
def Program.floats (p : Program) : List Double := Stmt.listFloats p.body

/-- A double that is read from the text that is written for it, if it is
    finite. -/
def Double.ReadsBack (x : Double) : Prop :=
  x.isFinite = true → Json.readText Json.double (Json.ofDouble x).compact = .ok x

/-- Reading back can be evaluated, with the errors left out. -/
theorem Double.readsBack_of_toOption {x : Double}
    (h : (Json.readText Json.double (Json.ofDouble x).compact).toOption = some x) :
    x.ReadsBack := by
  intro _
  cases hresult : Json.readText Json.double (Json.ofDouble x).compact with
  | ok y =>
    rw [hresult] at h
    exact congrArg Except.ok (Option.some.inj h)
  | error problem =>
    rw [hresult] at h
    cases h

/-- A value with these doubles can be read where there is room for so many
    containers. -/
def Readable (n : Nat) (j : Json) (floats : List Double) : Prop :=
  height j ≤ n ∧ ∀ x ∈ floats, x.isFinite = true

/-! ## Section 2: Room for values -/

theorem readable_tagged {n : Nat} {name : String} {j : Json} {floats : List Double} :
    Readable n (.tagged name j) floats ↔ decide (0 < n) = true ∧ Readable (n - 1) j floats := by
  have hroom : height j + 1 ≤ n ↔ 0 < n ∧ height j ≤ n - 1 := by omega
  simp only [Readable, Json.tagged, height, Json.membersHeight, Nat.max_zero, decide_eq_true_eq,
    hroom, and_assoc]

/-- A variant with content can be read where its content can be read with
    room for one container less. -/
theorem reads_tagged {α : Type} {variants : List (Json.Variant α)} {name : String}
    {content : Json.Content α} (hfind : Json.Variant.find variants name = .ok content) {n : Nat}
    {j : Json} {floats : List Double} {a : α}
    (h : ReadsIff (Readable (n - 1) j floats) a (Json.Variant.filled (node j) content)) :
    ReadsIff (Readable n (.tagged name j) floats) a
      (Json.choice variants (decide (0 < n)) (node (.tagged name j))) :=
  (ReadsIff.choice hfind h _).congr readable_tagged.symm

theorem itemsHeight_map_le_iff {α : Type} {write : α → Json} {items : List α} {n : Nat} :
    Json.itemsHeight (items.map write) ≤ n ↔ ∀ a ∈ items, height (write a) ≤ n := by
  induction items with
  | nil => simp [Json.itemsHeight]
  | cons first items ih => simp [Json.itemsHeight, ih]

/-- A list can be read where there is room for it and its items can be read
    with room for one container less. -/
theorem reads_list {α : Type} {write : α → Json} {floats : α → List Double}
    (read : Nat → Json.Reader α) (readList : Nat → Json.Reader (List α))
    (hzero : ∀ node, readList 0 node = Json.listOf none node)
    (hsucc : ∀ k node, readList (k + 1) node = Json.listOf (some (read k)) node) {items : List α}
    (h : ∀ a ∈ items, ∀ k, ReadsIff (Readable k (write a) (floats a)) a (read k (node (write a))))
    (n : Nat) :
    ReadsIff (Readable n (.list (items.map write)) (items.flatMap floats)) items
      (readList n (node (.list (items.map write)))) := by
  cases n with
  | zero =>
    -- Even an empty list is a container.
    have hdeep : readList 0 (node (.list (items.map write))) = .error (.malformed .tooDeep) := by
      rw [hzero, node, Json.listOf]
    refine .of_error ?_ hdeep
    rintro ⟨hheight, -⟩
    rw [height] at hheight
    omega
  | succ k =>
    rw [hsucc]
    refine (Json.reads_listOf fun a ha => h a ha k).congr ?_
    rw [Readable, height, Nat.add_le_add_iff_right, itemsHeight_map_le_iff]
    simp only [Readable, List.mem_flatMap]
    constructor
    · intro hall
      exact ⟨fun a ha => (hall a ha).1, fun x ⟨a, ha, hx⟩ => (hall a ha).2 x hx⟩
    · rintro ⟨hheights, hfinite⟩ a ha
      exact ⟨hheights a ha, fun x hx => hfinite x ⟨a, ha, hx⟩⟩

/-- The members with these doubles are the fields of a record, and can be
    read where there is room for so many containers in each of them. -/
def FitsAt (n : Nat) {γ : Type} (fields : Fields γ) (members : List (String × Json))
    (floats : List Double) (value : γ) : Prop :=
  Fields.Fit fields members
    (Json.membersHeight members ≤ n ∧ ∀ x ∈ floats, x.isFinite = true) value

namespace FitsAt

theorem nil (n : Nat) : FitsAt n .nil [] [] () := by
  refine Fields.Fit.nil.congr ?_
  simp [Json.membersHeight]

theorem cons {n : Nat} {α β : Type} {name : String} {read : Json.Reader α}
    {presence : Json.Presence α} {rest : Fields β} {j : Json} {members : List (String × Json)}
    {floats more : List Double} {a : α} {b : β}
    (hread : ReadsIff (Readable n j floats) a (read (node j)))
    (hname : name ∉ members.map Prod.fst) (hrest : FitsAt n rest members more b) :
    FitsAt n (.cons name read presence none rest) ((name, j) :: members) (floats ++ more)
      (a, b) := by
  refine (Fields.Fit.cons hread hname hrest).congr ?_
  simp only [Readable, Json.membersHeight, Nat.max_le, List.forall_mem_append]
  exact and_and_and_comm

end FitsAt

/-- The readers for the fields of a node, with room for so many containers in
    each of them. -/
def Parts.withRoom (n : Nat) : Parts :=
  ⟨decide (0 < n), Expr.read n, Stmt.read n, Expr.readList n, Stmt.readList n⟩

/-- The readers for the fields of a node with room for so many containers: its
    own and that of the fields are two of them. -/
def Parts.inside : Nat → Option Parts
  | 0 | 1 => none
  | n + 2 => some (.withRoom n)

theorem Expr.read_eq (n : Nat) (content : Json.Node) :
    Expr.read n content =
      Json.choice (Expr.variants (Value.read (n - 1)) (Parts.inside n)) (decide (0 < n))
        content := by
  match n with
  | 0 => rw [Expr.read]; rfl
  | 1 => rw [Expr.read]; rfl
  | n + 2 =>
    rw [Expr.read, decide_eq_true (Nat.succ_pos _)]
    rfl

/-- Without any room the readers of the variants do not matter. -/
theorem Stmt.read_zero : Stmt.read 0 =
    Json.choice (Stmt.variants (fun _ => .error (.malformed .tooDeep)) (Parts.inside 0))
      (decide (0 < 0)) := by
  funext content
  rw [Stmt.read]
  rfl

theorem Stmt.read_succ (n : Nat) : Stmt.read (n + 1) =
    Json.choice (Stmt.variants (Expr.read n) (Parts.inside (n + 1))) (decide (0 < n + 1)) := by
  funext content
  rw [decide_eq_true (Nat.succ_pos n)]
  cases n <;> rw [Stmt.read] <;> rfl

theorem Stmt.read_tagged (n : Nat) (name : String) (j : Json) :
    Stmt.read n (node (.tagged name j)) =
      Json.choice (Stmt.variants (Expr.read (n - 1)) (Parts.inside n)) (decide (0 < n))
        (node (.tagged name j)) := by
  cases n with
  | zero =>
    rw [Stmt.read_zero, Json.tagged, node]
    rfl
  | succ n => rw [Stmt.read_succ, Nat.add_sub_cancel]

/-- A variant with fields can be read where its fields can be read with room
    for two containers less. -/
theorem reads_withFields {α γ : Type} {variants : List (Json.Variant α)} {type name : String}
    {n : Nat} {fields : Parts → Fields γ} {make : γ → α} {members : List (String × Json)}
    {floats more : List Double} {value : γ} {a : α}
    (hfind : Json.Variant.find variants name =
      .ok (withFields type name (Parts.inside n) fields make).content)
    (hfit : ∀ k, FitsAt k (fields (Parts.withRoom k)) members more value)
    (hfloats : floats = more) (hmake : make value = a) :
    ReadsIff (Readable n (.tagged name (.object members)) floats) a
      (Json.choice variants (decide (0 < n)) (node (.tagged name (.object members)))) := by
  subst hfloats hmake
  refine reads_tagged hfind ?_
  show ReadsIff _ _
    ((Json.record _ ((Parts.inside n).map fields) (node (.object members))).map make)
  refine ReadsIff.map make ?_
  match n with
  | 0 | 1 =>
    -- The variant and its fields are two containers, for which there is no room.
    have hdeep : ∀ title, Json.record title (none : Option (Fields γ)) (node (.object members)) =
        .error (.malformed .tooDeep) := by
      intro title
      rw [node, Json.record]
    refine .of_error ?_ (hdeep _)
    rintro ⟨hheight, -⟩
    rw [height] at hheight
    omega
  | n + 2 =>
    refine (Json.reads_record (hfit n)).congr ?_
    rw [Readable, height, Nat.add_sub_cancel_right (n + 1) 1, Nat.add_le_add_iff_right]

/-! ## Section 3: Scalars, operators and names -/

theorem readable_of_height {n : Nat} {j : Json} (h : height j ≤ n) : Readable n j [] :=
  ⟨h, List.forall_mem_nil _⟩

theorem Double.reads_ofDouble {x : Double} (h : x.ReadsBack) :
    ReadsIff (x.isFinite = true) x (Json.double (node (Json.ofDouble x))) := by
  by_cases hfinite : x.isFinite = true
  · -- The assumption is about the double alone, as a whole text.
    have hread := h hfinite
    rw [Json.compact, Json.readText_written _ Json.Style.compact_blank] at hread
    exact .of_ok hfinite hread
  · -- Anything else is written as `null`, which is no double.
    have hnull : Json.ofDouble x = .null := dif_neg hfinite
    rw [hnull, node]
    exact .of_error hfinite rfl

theorem Json.height_ofDouble (x : Double) : height (Json.ofDouble x) = 0 := by
  unfold Json.ofDouble
  split <;> rw [height]

theorem Json.int64_ofInt64 (n : Int64) : Json.int64 (node (.number (.ofInt64 n))) = .ok n := by
  rw [node, Number.ofInt64, Json.reread_whole]
  have hlt : n.toInt < 0x8000000000000000 := n.toInt_lt
  show (if n.toInt < 0x8000000000000000 then _ else _) = _
  rw [if_pos hlt, Int64.ofInt_toInt]

theorem Value.reads_toJson (v : Value) (h : ∀ x ∈ v.floats, x.ReadsBack) (n : Nat) :
    ReadsIff (Readable n v.toJson v.floats) v (Value.read n (node v.toJson)) := by
  cases v with
  | null =>
    refine .of_ok (readable_of_height ?_) (by rw [Value.toJson, node]; rfl)
    rw [Value.toJson, height]
    exact Nat.zero_le n
  | integer m =>
    refine reads_tagged rfl (ReadsIff.map Value.integer ?_)
    exact .of_ok (readable_of_height (Nat.zero_le _)) (Json.int64_ofInt64 m)
  | float x =>
    refine reads_tagged rfl (ReadsIff.map Value.float ?_)
    refine (Double.reads_ofDouble (h x List.mem_cons_self)).congr ?_
    simp [Readable, Value.floats, Json.height_ofDouble]
  | string s =>
    refine reads_tagged rfl ?_
    exact .of_ok (readable_of_height (Nat.zero_le _)) (by rw [node]; rfl)
  | bool b =>
    refine reads_tagged rfl ?_
    exact .of_ok (readable_of_height (Nat.zero_le _)) (by rw [node]; rfl)

theorem reads_text (s : String) (n : Nat) :
    ReadsIff (Readable n (.string s) []) s (Json.text (node (.string s))) :=
  .of_ok (readable_of_height (Nat.zero_le n)) (by rw [node]; rfl)

theorem reads_flag (b : Bool) (n : Nat) :
    ReadsIff (Readable n (.bool b) []) b (Json.flag (node (.bool b))) :=
  .of_ok (readable_of_height (Nat.zero_le n)) (by rw [node]; rfl)

theorem BinaryOp.reads_name (op : BinaryOp) (n : Nat) :
    ReadsIff (Readable n (.string op.name) []) op
      ((Parts.withRoom n).binaryOp (node (.string op.name))) :=
  .of_ok (readable_of_height (Nat.zero_le n)) (by rw [node]; cases op <;> rfl)

theorem UnaryOp.reads_name (op : UnaryOp) (n : Nat) :
    ReadsIff (Readable n (.string op.name) []) op
      ((Parts.withRoom n).unaryOp (node (.string op.name))) :=
  .of_ok (readable_of_height (Nat.zero_le n)) (by rw [node]; cases op <;> rfl)

theorem CallMode.reads_name (mode : CallMode) (n : Nat) :
    ReadsIff (Readable n (.string mode.name) []) mode
      ((Parts.withRoom n).mode (node (.string mode.name))) :=
  .of_ok (readable_of_height (Nat.zero_le n)) (by rw [node]; cases mode <;> rfl)

theorem reads_names (names : List String) (n : Nat) :
    ReadsIff (Readable n (.list (names.map Json.string)) []) names
      ((Parts.withRoom n).names (node (.list (names.map Json.string)))) := by
  have hnone : names.flatMap (fun _ => ([] : List Double)) = [] := by simp
  have htexts : ∀ name ∈ names, ∀ k,
      ReadsIff (Readable k (.string name) []) name (Json.text (node (.string name))) :=
    fun name _ k => reads_text name k
  have hread := reads_list (fun _ => Json.text) (fun n => (Parts.withRoom n).names)
    (fun _ => rfl) (fun _ _ => rfl) htexts n
  rwa [hnone] at hread

theorem reads_none {α : Type} (read : Json.Reader α) (n : Nat) :
    ReadsIff (Readable n .null []) none (Json.optional read (node .null)) :=
  .of_ok (readable_of_height (Nat.zero_le n)) (by rw [node]; rfl)

/-- What is not `null` is read as what may be `null` is read. -/
theorem reads_some {α : Type} {read : Json.Reader α} {cond : Prop} {j : Json} {a : α}
    (hj : j ≠ .null) (h : ReadsIff cond a (read (node j))) :
    ReadsIff cond (some a) (Json.optional read (node j)) := by
  have hoptional : Json.optional read (node j) = (read (node j)).map some := by
    cases j with
    | null => exact absurd rfl hj
    | number n =>
      rw [node]
      cases Json.reread n <;> rfl
    | _ => rw [node]; rfl
  rw [hoptional]
  exact h.map some

/-! ## Section 4: Expressions and statements -/

theorem Expr.listToJson_eq_map (es : List Expr) : Expr.listToJson es = es.map Expr.toJson := by
  induction es with
  | nil => rfl
  | cons e es ih => rw [Expr.listToJson, ih, List.map_cons]

theorem Stmt.listToJson_eq_map (ss : List Stmt) : Stmt.listToJson ss = ss.map Stmt.toJson := by
  induction ss with
  | nil => rfl
  | cons s ss ih => rw [Stmt.listToJson, ih, List.map_cons]

theorem Expr.listFloats_eq_flatMap (es : List Expr) :
    Expr.listFloats es = es.flatMap Expr.floats := by
  induction es with
  | nil => rfl
  | cons e es ih => rw [Expr.listFloats, ih, List.flatMap_cons]

theorem Stmt.listFloats_eq_flatMap (ss : List Stmt) :
    Stmt.listFloats ss = ss.flatMap Stmt.floats := by
  induction ss with
  | nil => rfl
  | cons s ss ih => rw [Stmt.listFloats, ih, List.flatMap_cons]

theorem Expr.reads_list {es : List Expr}
    (h : ∀ e ∈ es, ∀ k, ReadsIff (Readable k e.toJson e.floats) e (Expr.read k (node e.toJson)))
    (n : Nat) :
    ReadsIff (Readable n (.list (Expr.listToJson es)) (Expr.listFloats es)) es
      (Expr.readList n (node (.list (Expr.listToJson es)))) := by
  rw [Expr.listToJson_eq_map, Expr.listFloats_eq_flatMap]
  exact BlockFlow.reads_list Expr.read Expr.readList (fun _ => by rw [Expr.readList])
    (fun _ _ => by rw [Expr.readList]) h n

theorem Stmt.reads_list {ss : List Stmt}
    (h : ∀ s ∈ ss, ∀ k, ReadsIff (Readable k s.toJson s.floats) s (Stmt.read k (node s.toJson)))
    (n : Nat) :
    ReadsIff (Readable n (.list (Stmt.listToJson ss)) (Stmt.listFloats ss)) ss
      (Stmt.readList n (node (.list (Stmt.listToJson ss)))) := by
  rw [Stmt.listToJson_eq_map, Stmt.listFloats_eq_flatMap]
  exact BlockFlow.reads_list Stmt.read Stmt.readList (fun _ => by rw [Stmt.readList])
    (fun _ _ => by rw [Stmt.readList]) h n

theorem Expr.toJson_ne_null (e : Expr) : e.toJson ≠ .null := by
  cases e <;> rw [Expr.toJson] <;> exact Json.noConfusion

-- Every case names the variant (the first `rfl`), reads its fields in their
-- order, and sees that their doubles are the doubles of the whole.
mutual

/-- An expression is read back where there is room for it, if its doubles are
    finite. -/
theorem Expr.reads_toJson :
    ∀ (e : Expr), (∀ x ∈ e.floats, x.ReadsBack) → ∀ n,
      ReadsIff (Readable n e.toJson e.floats) e (Expr.read n (node e.toJson))
  | .literal v, h, n => by
    rw [Expr.toJson, Expr.floats, Expr.read_eq]
    refine reads_tagged rfl ?_
    exact (v.reads_toJson h (n - 1)).map Expr.literal
  | .ident name, h, n => by
    rw [Expr.toJson, Expr.floats, Expr.read_eq]
    refine reads_tagged rfl ?_
    exact (reads_text name (n - 1)).map Expr.ident
  | .binary op left right, h, n => by
    obtain ⟨hleft, hright⟩ := List.forall_mem_append.mp h
    have hleft := left.reads_toJson hleft
    have hright := right.reads_toJson hright
    rw [Expr.toJson, Expr.floats, Expr.read_eq]
    exact reads_withFields rfl
      (fun k => .cons (op.reads_name k) (by simp) <| .cons (hleft k) (by simp) <|
        .cons (hright k) (by simp) <| .nil k)
      (by simp) rfl
  | .unary op arg, h, n => by
    have harg := arg.reads_toJson h
    rw [Expr.toJson, Expr.floats, Expr.read_eq]
    exact reads_withFields rfl
      (fun k => .cons (op.reads_name k) (by simp) <| .cons (harg k) (by simp) <| .nil k)
      (by simp) rfl
  | .call callee args mode, h, n => by
    obtain ⟨hcallee, hargs⟩ := List.forall_mem_append.mp h
    have hcallee := callee.reads_toJson hcallee
    have hargs := Expr.reads_list (Expr.reads_listToJson args hargs)
    rw [Expr.toJson, Expr.floats, Expr.read_eq]
    exact reads_withFields rfl
      (fun k => .cons (hcallee k) (by simp) <| .cons (hargs k) (by simp) <|
        .cons (mode.reads_name k) (by simp) <| .nil k)
      (by simp) rfl
  | .member object property, h, n => by
    have hobject := object.reads_toJson h
    rw [Expr.toJson, Expr.floats, Expr.read_eq]
    exact reads_withFields rfl
      (fun k => .cons (hobject k) (by simp) <| .cons (reads_text property k) (by simp) <| .nil k)
      (by simp) rfl
  | .closure params body isAsync, h, n => by
    have hbody := Stmt.reads_list (Stmt.reads_listToJson body h)
    rw [Expr.toJson, Expr.floats, Expr.read_eq]
    exact reads_withFields rfl
      (fun k => .cons (reads_names params k) (by simp) <| .cons (hbody k) (by simp) <|
        .cons (reads_flag isAsync k) (by simp) <| .nil k)
      (by simp) rfl

/-- Each of the expressions of a list is read back. -/
theorem Expr.reads_listToJson :
    ∀ (es : List Expr), (∀ x ∈ Expr.listFloats es, x.ReadsBack) →
      ∀ e ∈ es, ∀ n, ReadsIff (Readable n e.toJson e.floats) e (Expr.read n (node e.toJson))
  | [], _ => List.forall_mem_nil _
  | first :: es, h => by
    obtain ⟨hfirst, hrest⟩ := List.forall_mem_append.mp h
    exact List.forall_mem_cons.mpr ⟨first.reads_toJson hfirst, Expr.reads_listToJson es hrest⟩

/-- A statement is read back where there is room for it, if its doubles are
    finite. -/
theorem Stmt.reads_toJson :
    ∀ (s : Stmt), (∀ x ∈ s.floats, x.ReadsBack) → ∀ n,
      ReadsIff (Readable n s.toJson s.floats) s (Stmt.read n (node s.toJson))
  | .cond test body none, h, n => by
    obtain ⟨htest, hbody⟩ := List.forall_mem_append.mp h
    have htest := test.reads_toJson htest
    have hbody := Stmt.reads_list (Stmt.reads_listToJson body hbody)
    rw [Stmt.toJson, Stmt.floats, Stmt.read_tagged]
    exact reads_withFields rfl
      (fun k => .cons (htest k) (by simp) <| .cons (hbody k) (by simp) <|
        .cons (reads_none (Stmt.readList k) k) (by simp) <| .nil k)
      (by simp) rfl
  | .cond test body (some orElse), h, n => by
    obtain ⟨htest, hrest⟩ := List.forall_mem_append.mp h
    obtain ⟨hbody, horElse⟩ := List.forall_mem_append.mp hrest
    have htest := test.reads_toJson htest
    have hbody := Stmt.reads_list (Stmt.reads_listToJson body hbody)
    have horElse := Stmt.reads_list (Stmt.reads_listToJson orElse horElse)
    rw [Stmt.toJson, Stmt.floats, Stmt.read_tagged]
    exact reads_withFields rfl
      (fun k => .cons (htest k) (by simp) <| .cons (hbody k) (by simp) <|
        .cons (reads_some Json.noConfusion (horElse k)) (by simp) <| .nil k)
      (by simp) rfl
  | .forLoop init test update body, h, n => by
    obtain ⟨hinit, hrest⟩ := List.forall_mem_append.mp h
    obtain ⟨htest, hrest⟩ := List.forall_mem_append.mp hrest
    obtain ⟨hupdate, hbody⟩ := List.forall_mem_append.mp hrest
    have hinit := init.reads_toJson hinit
    have htest := test.reads_toJson htest
    have hupdate := update.reads_toJson hupdate
    have hbody := Stmt.reads_list (Stmt.reads_listToJson body hbody)
    rw [Stmt.toJson, Stmt.floats, Stmt.read_tagged]
    exact reads_withFields rfl
      (fun k => .cons (hinit k) (by simp) <| .cons (htest k) (by simp) <|
        .cons (hupdate k) (by simp) <| .cons (hbody k) (by simp) <| .nil k)
      (by simp) rfl
  | .whileLoop test body, h, n => by
    obtain ⟨htest, hbody⟩ := List.forall_mem_append.mp h
    have htest := test.reads_toJson htest
    have hbody := Stmt.reads_list (Stmt.reads_listToJson body hbody)
    rw [Stmt.toJson, Stmt.floats, Stmt.read_tagged]
    exact reads_withFields rfl
      (fun k => .cons (htest k) (by simp) <| .cons (hbody k) (by simp) <| .nil k)
      (by simp) rfl
  | .doWhile body test, h, n => by
    obtain ⟨hbody, htest⟩ := List.forall_mem_append.mp h
    have hbody := Stmt.reads_list (Stmt.reads_listToJson body hbody)
    have htest := test.reads_toJson htest
    rw [Stmt.toJson, Stmt.floats, Stmt.read_tagged]
    exact reads_withFields rfl
      (fun k => .cons (hbody k) (by simp) <| .cons (htest k) (by simp) <| .nil k)
      (by simp) rfl
  | .switch subject cases, h, n => by
    obtain ⟨hsubject, hcases⟩ := List.forall_mem_append.mp h
    have hsubject := subject.reads_toJson hsubject
    have hcases := Stmt.reads_list (Stmt.reads_listToJson cases hcases)
    rw [Stmt.toJson, Stmt.floats, Stmt.read_tagged]
    exact reads_withFields rfl
      (fun k => .cons (hsubject k) (by simp) <| .cons (hcases k) (by simp) <| .nil k)
      (by simp) rfl
  | .case none body, h, n => by
    have hbody := Stmt.reads_list (Stmt.reads_listToJson body h)
    rw [Stmt.toJson, Stmt.floats, Stmt.read_tagged]
    exact reads_withFields rfl
      (fun k => .cons (reads_none (Expr.read k) k) (by simp) <| .cons (hbody k) (by simp) <|
        .nil k)
      (by simp) rfl
  | .case (some test) body, h, n => by
    obtain ⟨htest, hbody⟩ := List.forall_mem_append.mp h
    have htest := test.reads_toJson htest
    have hbody := Stmt.reads_list (Stmt.reads_listToJson body hbody)
    rw [Stmt.toJson, Stmt.floats, Stmt.read_tagged]
    exact reads_withFields rfl
      (fun k => .cons (reads_some test.toJson_ne_null (htest k)) (by simp) <|
        .cons (hbody k) (by simp) <| .nil k)
      (by simp) rfl
  | .brk, _, n => by
    -- A variant without content takes no container.
    have hbreak : Stmt.read n (node (.string "Break")) = .ok .brk := by
      match n with
      | 0 | 1 | n + 2 => rw [Stmt.read, node]; rfl
    rw [Stmt.toJson, Stmt.floats]
    exact .of_ok (readable_of_height (Nat.zero_le n)) hbreak
  | .bind name init, h, n => by
    have hinit := init.reads_toJson h
    rw [Stmt.toJson, Stmt.floats, Stmt.read_tagged]
    exact reads_withFields rfl
      (fun k => .cons (reads_text name k) (by simp) <| .cons (hinit k) (by simp) <| .nil k)
      (by simp) rfl
  | .assign target value, h, n => by
    obtain ⟨htarget, hvalue⟩ := List.forall_mem_append.mp h
    have htarget := target.reads_toJson htarget
    have hvalue := value.reads_toJson hvalue
    rw [Stmt.toJson, Stmt.floats, Stmt.read_tagged]
    exact reads_withFields rfl
      (fun k => .cons (htarget k) (by simp) <| .cons (hvalue k) (by simp) <| .nil k)
      (by simp) rfl
  | .expr e, h, n => by
    rw [Stmt.toJson, Stmt.floats, Stmt.read_tagged]
    refine reads_tagged rfl ?_
    exact (e.reads_toJson h (n - 1)).map Stmt.expr
  | .ret e, h, n => by
    rw [Stmt.toJson, Stmt.floats, Stmt.read_tagged]
    refine reads_tagged rfl ?_
    exact (e.reads_toJson h (n - 1)).map Stmt.ret

/-- Each of the statements of a list is read back. -/
theorem Stmt.reads_listToJson :
    ∀ (ss : List Stmt), (∀ x ∈ Stmt.listFloats ss, x.ReadsBack) →
      ∀ s ∈ ss, ∀ n, ReadsIff (Readable n s.toJson s.floats) s (Stmt.read n (node s.toJson))
  | [], _ => List.forall_mem_nil _
  | first :: ss, h => by
    obtain ⟨hfirst, hrest⟩ := List.forall_mem_append.mp h
    exact List.forall_mem_cons.mpr ⟨first.reads_toJson hfirst, Stmt.reads_listToJson ss hrest⟩

end

/-! ## Section 5: Programs -/

theorem Program.reads_toJson (p : Program) (h : ∀ x ∈ p.floats, x.ReadsBack) (n : Nat) :
    ReadsIff (Readable n p.toJson p.floats) p (Program.read n (node p.toJson)) := by
  have hbody := Stmt.reads_list (Stmt.reads_listToJson p.body h)
  match n with
  | 0 =>
    have hdeep : Program.read 0 (node p.toJson) = .error (.malformed .tooDeep) := by
      rw [Program.toJson, node]
      rfl
    refine .of_error ?_ hdeep
    rintro ⟨hheight, -⟩
    rw [Program.toJson, height] at hheight
    omega
  | n + 1 =>
    have hfit : FitsAt n (Program.fields n) [("body", .list (Stmt.listToJson p.body))]
        (p.floats ++ []) (p.body, ()) := .cons (hbody n) (by simp) (.nil n)
    have hrecord : ReadsIff (Readable (n + 1) p.toJson p.floats) (p.body, ())
        (Json.record "struct Program" (some (Program.fields n)) (node p.toJson)) := by
      refine (Json.reads_record hfit).congr ?_
      rw [Program.toJson, Readable, height, Nat.add_le_add_iff_right, List.append_nil]
    exact hrecord.map fun fields => Program.mk fields.1

/-- The text of a program is read through its node, in whatever style. -/
theorem Program.ofText_written (p : Program) {style : Json.Style} (hstyle : style.Blank) :
    Program.ofText (String.ofList (Json.write style 0 p.toJson)) =
      (Program.read Json.maxDepth (node p.toJson)).mapError .json := by
  rw [Program.ofText, Json.readText_written _ hstyle]

/-- **Round trip of the text, with its exact domain**: a program is read back
    from its text exactly if its doubles are finite and the text nests at most
    127 containers, and otherwise the text is refused. The indented text fares
    like the compact one. -/
theorem Program.ofText_toText_iff (p : Program) (h : ∀ x ∈ p.floats, x.ReadsBack) :
    (Program.ofText p.toText = .ok p ↔
      (∀ x ∈ p.floats, x.isFinite = true) ∧ Json.nesting p.toText ≤ 127) ∧
    (Program.ofText p.toText ≠ .ok p → ∃ error, Program.ofText p.toText = .error error) ∧
    (Program.ofText p.toIndentedText = .ok p ↔ Program.ofText p.toText = .ok p) ∧
    (Program.ofText p.toIndentedText ≠ .ok p →
      ∃ error, Program.ofText p.toIndentedText = .error error) := by
  have hcompact : Program.ofText p.toText = _ := p.ofText_written Json.Style.compact_blank
  have hindented : Program.ofText p.toIndentedText = _ := p.ofText_written Json.Style.indented_blank
  have hnesting : Json.nesting p.toText = height p.toJson :=
    Json.nesting_written Json.Style.compact_blank p.toJson
  have hreads := p.reads_toJson h Json.maxDepth
  rw [hcompact, hindented, hnesting]
  by_cases hreadable : Readable Json.maxDepth p.toJson p.floats
  · rw [hreads.1 hreadable]
    exact ⟨⟨fun _ => hreadable.symm, fun _ => rfl⟩, fun hne => absurd rfl hne, Iff.rfl,
      fun hne => absurd rfl hne⟩
  · obtain ⟨problem, hproblem⟩ := hreads.2 hreadable
    rw [hproblem]
    exact ⟨⟨nofun, fun hc => absurd hc.symm hreadable⟩, fun _ => ⟨_, rfl⟩, Iff.rfl,
      fun _ => ⟨_, rfl⟩⟩

theorem Program.ofText_toText_iff_signed_zero :
    let p : Program := ⟨[
      .assign (.ident "♪\n") (.unary .neg (.literal (.float ⟨0x4004000000000000⟩))),
      .case none [.ret (.literal (.float ⟨0x8000000000000000⟩))],
      .expr (.literal (.integer Int64.minValue))]⟩
    (∀ x ∈ p.floats, x.ReadsBack) ∧ Program.ofText p.toText = .ok p ∧
      Program.ofText p.toIndentedText = .ok p := by
  intro p
  have hfloats : p.floats = [⟨0x4004000000000000⟩, ⟨0x8000000000000000⟩] := rfl
  have hread : ∀ x ∈ p.floats,
      (Json.readText Json.double (Json.ofDouble x).compact).toOption = some x := by
    rw [hfloats]
    decide +kernel
  have hback : ∀ x ∈ p.floats, x.ReadsBack := by
    intro x hx
    exact Double.readsBack_of_toOption (hread x hx)
  have hfinite : ∀ x ∈ p.floats, x.isFinite = true := by
    rw [hfloats]
    decide
  have hnesting : Json.nesting p.toText = 8 :=
    Json.nesting_written Json.Style.compact_blank p.toJson
  have hiff := Program.ofText_toText_iff p hback
  have hcompact := hiff.1.mpr ⟨hfinite, by omega⟩
  exact ⟨hback, hcompact, hiff.2.2.1.mpr hcompact⟩

end BlockFlow
