import BlockFlow.Json.Document

/-! # Readers

  Readers take the node of a document to a value of a wanted type, or to the
  first problem from left to right. This module has the readers for plain
  values, lists, records and choices, of which the readers for the types of
  the library are put together.

  - **Room.** Containers may be nested `maxDepth` deep. A reader that opens
    a container is given the readers for its inside as an option: `none` if
    there is no room for another container.
  - **Records.** A record is an object with named fields in any order, or a
    list of its fields in the order of their declaration. Members that are
    no fields are passed over, and do not count for the depth.
  - **Choices.** A variant without content is its name as a string. Any
    other variant is an object with one member, named for the variant.
-/

namespace BlockFlow.Json

/-- A way to read a value of a given type. -/
abbrev Reader (α : Type) := Node → Except Problem α

/-- How many containers may stand inside each other. -/
def maxDepth : Nat := 127

/-! ## Small steps -/

/-- The problem with a node where something else is wanted. -/
def Node.refuse (wanted : String) : Node → Problem
  | .null => .wrongType .null wanted
  | .bool b => .wrongType (.bool b) wanted
  | .number n => .wrongType (.number n) wanted
  | .string s => .wrongType (.string s) wanted
  | .list _ _ => .wrongType .list wanted
  | .object _ _ => .wrongType .object wanted
  | .unfit fault => .malformed fault
  | .broken _ reading _ => reading

/-- Goes on if there is no problem. -/
def check (problem? : Option Problem) : Except Problem Unit :=
  match problem? with
  | none => .ok ()
  | some problem => .error problem

/-- The text of a key. -/
def keyText : Except Fault String → Except Problem String
  | .ok key => .ok key
  | .error fault => .error (.malformed fault)

mutual

/-- Passes over a value that nobody asked for. -/
def pass : Node → Except Problem Unit
  | .list items ending => do
    passItems items
    check ending.passedListProblem?
  | .object members ending => do
    passMembers members
    check ending.passedObjectProblem?
  | .broken _ _ passing => .error passing
  | _ => .ok ()

/-- Passes over the items of a list. -/
def passItems : List Node → Except Problem Unit
  | [] => .ok ()
  | item :: items => do
    pass item
    passItems items

/-- Passes over the members of an object. -/
def passMembers : List (Except Fault String × Node) → Except Problem Unit
  | [] => .ok ()
  | (_, value) :: members => do
    pass value
    passMembers members

end

/-! ## Plain values -/

/-- Reads a string. -/
def text : Reader String
  | .string s => .ok s
  | node => .error (node.refuse "a string")

/-- Reads a truth value. -/
def flag : Reader Bool
  | .bool b => .ok b
  | node => .error (node.refuse "a boolean")

/-- Reads a signed 64-bit integer. -/
def int64 : Reader Int64
  | .number (.whole n _) =>
    if n < 0x8000000000000000 then .ok (Int64.ofInt n) else .error (.wrongValue n "i64")
  | node => .error (node.refuse "i64")

/-- Reads a double. Integers are taken for the nearest one. -/
def double : Reader Double
  | .number n => .ok n.toDouble
  | node => .error (node.refuse "f64")

/-- Reads the content of a variant that has none: `null`. -/
def nothing : Reader Unit
  | .null => .ok ()
  | node => .error (node.refuse "unit")

/-- Reads what may be `null` instead. -/
def optional {α : Type} (read : Reader α) : Reader (Option α)
  | .null => .ok none
  | .broken .null reading _ => .error reading
  | node => (read node).map some

/-! ## Lists and dictionaries -/

/-- Reads the items of a list one after another. -/
def readItems {α : Type} (read : Reader α) : List Node → Except Problem (List α)
  | [] => .ok []
  | item :: items => do
    let first ← read item
    let rest ← readItems read items
    return first :: rest

/-- Reads a list, with a reader for its items if there is room. -/
def listOf {α : Type} (inside : Option (Reader α)) : Reader (List α)
  | .list items ending =>
    match inside with
    | none => .error (.malformed .tooDeep)
    | some read => do
      let values ← readItems read items
      check ending.listProblem?
      return values
  | node => .error (node.refuse "a sequence")

/-- Reads the members of an object one after another, as named values. -/
def readMembers {α : Type} (read : Reader α) :
    List (Except Fault String × Node) → Except Problem (List (String × α))
  | [] => .ok []
  | (key, node) :: members => do
    let key ← keyText key
    let value ← read node
    let rest ← readMembers read members
    return (key, value) :: rest

/-- Reads an object as named values in the order of the text, with a reader
    for the values if there is room. -/
def membersOf {α : Type} (inside : Option (Reader α)) : Reader (List (String × α))
  | .object members ending =>
    match inside with
    | none => .error (.malformed .tooDeep)
    | some read => do
      let values ← readMembers read members
      check ending.objectProblem?
      return values
  | node => .error (node.refuse "a map")

/-! ## Records -/

/-- Whether a field may be left out, and what stands for it then. -/
inductive Presence (α : Type) where
  /-- The field must be there. -/
  | required
  /-- The field may be missing in an object. -/
  | optional (absent : α)
  /-- The field may be missing in an object and at the end of a list. -/
  | defaulted (absent : α)

/-- The fields of a record in the order of their declaration, each with the
    value that was read for it, if any. -/
inductive Fields : Type → Type 1 where
  /-- No field. -/
  | nil : Fields Unit
  /-- A field and the ones behind it. -/
  | cons {α β : Type} (name : String) (read : Reader α) (presence : Presence α)
      (value : Option α) (rest : Fields β) : Fields (α × β)

namespace Fields

/-- A field that must be there. -/
def required {α β : Type} (name : String) (read : Reader α) (rest : Fields β) : Fields (α × β) :=
  .cons name read .required none rest

/-- A field that may be `null`, and may be missing in an object. -/
def maybe {α β : Type} (name : String) (read : Reader α) (rest : Fields β) :
    Fields (Option α × β) :=
  .cons name (Json.optional read) (.optional none) none rest

/-- A field with a default. -/
def defaulted {α β : Type} (name : String) (read : Reader α) (absent : α) (rest : Fields β) :
    Fields (α × β) :=
  .cons name read (.defaulted absent) none rest

/-- How many fields there are. -/
def size {γ : Type} : Fields γ → Nat
  | .nil => 0
  | .cons _ _ _ _ rest => rest.size + 1

/-- Reads a member as the field of its name, if there is such a field. -/
def place {γ : Type} (key : String) (node : Node) : Fields γ → Option (Except Problem (Fields γ))
  | .nil => none
  | .cons name read presence value rest =>
    if name = key then
      some (match value with
        | some _ => .error (.repeatedField name)
        | none => (read node).map fun v => .cons name read presence (some v) rest)
    else
      (place key node rest).map fun placed => placed.map (.cons name read presence value)

/-- Reads the members of an object one after another. -/
def readObject {γ : Type} (fields : Fields γ) :
    List (Except Fault String × Node) → Except Problem (Fields γ)
  | [] => .ok fields
  | (key, node) :: members =>
    match keyText key with
    | .error problem => .error problem
    | .ok key =>
      match fields.place key node with
      | some (.ok fields) => readObject fields members
      | some (.error problem) => .error problem
      | none =>
        match pass node with
        | .ok () => readObject fields members
        | .error problem => .error problem

/-- The values of the fields once all members are read. The first field that
    is missing is reported. -/
def values {γ : Type} : Fields γ → Except Problem γ
  | .nil => .ok ()
  | .cons name _ presence value rest => do
    let first ← match value, presence with
      | some v, _ => .ok v
      | none, .required => .error (.missingField name)
      | none, .optional absent => .ok absent
      | none, .defaulted absent => .ok absent
    let others ← rest.values
    return (first, others)

/-- The problem with a list in which something is left when all fields are
    read. -/
def leftOver (items : List Node) (ending : Ending) : Option Problem :=
  match items, ending with
  | [], .closed => none
  | [], .cut => some (.cutShort .list)
  | [], .commaClosed => some (.malformed .trailingComma)
  | _, _ => some (.malformed .trailingText)

/-- Reads the items of a list as the fields in their order; `count` of them
    have been read before. A list that is too short is described by
    `wanted`. -/
def readList {γ : Type} (wanted : String) (count : Nat) (fields : Fields γ) (items : List Node)
    (ending : Ending) : Except Problem γ :=
  match fields, items with
  -- Items behind the last field are not looked into.
  | .nil, items => check (leftOver items ending)
  | .cons _ read _ _ rest, item :: items => do
    let first ← read item
    let others ← rest.readList wanted (count + 1) items ending
    return (first, others)
  | .cons _ _ presence _ rest, [] => do
    check ending.listProblem?
    match presence with
    | .defaulted absent =>
      let others ← rest.readList wanted count [] ending
      return (absent, others)
    | _ => .error (.wrongLength count wanted)

end Fields

/-- A title with the number of fields that belong to it. -/
def withElements (title : String) (count : Nat) : String :=
  title ++ " with " ++ toString count ++ (if count = 1 then " element" else " elements")

/-- Reads a record, with its fields if there is room. -/
def record {γ : Type} (title : String) (inside : Option (Fields γ)) : Reader γ
  | .object members ending =>
    match inside with
    | none => .error (.malformed .tooDeep)
    | some fields =>
      match fields.readObject members with
      | .error problem => .error problem
      | .ok fields => do
        check ending.objectProblem?
        fields.values
  | .list items ending =>
    match inside with
    | none => .error (.malformed .tooDeep)
    | some fields => fields.readList (withElements title fields.size) 0 items ending
  | node => .error (node.refuse title)

/-! ## Choices -/

/-- What a variant has besides its name. -/
inductive Content (α : Type) where
  /-- Nothing. -/
  | unit (value : α)
  /-- A single value. -/
  | single (read : Reader α)
  /-- Named fields. -/
  | fields (read : Reader α)

/-- One of the forms that a value may take. -/
structure Variant (α : Type) where
  /-- Its name. -/
  name : String
  /-- What comes with the name. -/
  content : Content α

namespace Variant

/-- The variant of a name. -/
def find {α : Type} (variants : List (Variant α)) (name : String) : Except Problem (Content α) :=
  match variants.find? fun variant => variant.name == name with
  | some variant => .ok variant.content
  | none => .error (.unknownVariant name (variants.map Variant.name))

/-- The value of a variant that is named without content. -/
def bare {α : Type} : Content α → Except Problem α
  | .unit value => .ok value
  | .single _ => .error (.noContent "newtype variant")
  | .fields _ => .error (.noContent "struct variant")

/-- The value of a variant with the content that a node holds. -/
def filled {α : Type} (node : Node) : Content α → Except Problem α
  | .unit value => (nothing node).map fun _ => value
  | .single read => read node
  | .fields read => read node

/-- The problem with an object that goes on, or breaks off, behind the
    content of a variant. -/
def leftOver (more : List (Except Fault String × Node)) (ending : Ending) : Option Problem :=
  match more, ending with
  | [], .closed => none
  | [], .cut => some (.cutShort .object)
  | _, _ => some (.malformed .noValue)

end Variant

/-- Reads a choice between variants; `room` says whether there is room for a
    container. -/
def choice {α : Type} (variants : List (Variant α)) (room : Bool) : Reader α
  | .string name => do
    let content ← Variant.find variants name
    Variant.bare content
  | .object members ending =>
    match room, members with
    | false, _ => .error (.malformed .tooDeep)
    | true, [] => .error ending.variantProblem
    | true, (key, node) :: more => do
      let name ← keyText key
      let content ← Variant.find variants name
      let value ← Variant.filled node content
      check (Variant.leftOver more ending)
      return value
  | .unfit fault => .error (.malformed fault)
  -- Words, numbers and lists are refused at their first character.
  | .broken .nothing reading _ | .broken .string reading _ => .error reading
  | _ => .error (.malformed .noValue)

/-! ## Whole texts -/

/-- Reads a document: its value, and then nothing. -/
def Document.read {α : Type} (read : Reader α) (document : Document) : Except Problem α := do
  let value ← read document.root
  check (if document.trailing then some (.malformed .trailingText) else none)
  return value

/-- Reads a text. -/
def readText {α : Type} (read : Reader α) (text : String) : Except Problem α :=
  (Document.ofText text).read read

end BlockFlow.Json
