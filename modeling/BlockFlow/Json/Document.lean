import BlockFlow.Json.Token

/-! # Documents

  What a JSON text holds, as far as it can be followed.

  A reader for a given type reports the first problem from left to right,
  and a value of the wrong shape at the start counts before a missing
  bracket at the end. So a text is first made into a `Node`, a tree that
  also has room for texts which break off or break the rules:

  - every container notes how it ended (`Ending`);
  - a place at which the text cannot be followed holds a `broken` node;
  - nothing stands to the right of a broken place.

  The tree is built by a machine over the tokens which keeps the open
  containers on a stack (`Frame`), so it is a fold, too. When the text ends
  or breaks, `plug` closes everything that is still open.
-/

namespace BlockFlow.Json

/-- How a container ended. -/
inductive Ending where
  /-- With its closing bracket. -/
  | closed
  /-- The text ended behind the opening bracket or behind an item. -/
  | cut
  /-- The text ended behind a comma. -/
  | cutAfterComma
  /-- A closing bracket came behind a comma. -/
  | commaClosed
  /-- Neither a comma nor the closing bracket came behind an item. -/
  | noComma
  /-- Something other than a string stood in place of a key. -/
  | noKey (token : Token)
  /-- A key was broken. -/
  | brokenKey (reading passing : Problem)

/-- A value of a text that may break off or break the rules. -/
inductive Node where
  /-- The value `null`. -/
  | null
  /-- A truth value. -/
  | bool (b : Bool)
  /-- A number. -/
  | number (n : Number)
  /-- A string. -/
  | string (s : String)
  /-- A list. -/
  | list (items : List Node) (ending : Ending)
  /-- An object. A key that cannot be read is a fault. -/
  | object (members : List (Except Fault String × Node)) (ending : Ending)
  /-- A number or string that can be passed over but not read. -/
  | unfit (fault : Fault)
  /-- A place where the text cannot be followed. -/
  | broken (begun : Begun) (reading passing : Problem)
deriving Inhabited

/-- A whole text: its value, and whether anything follows it. -/
structure Document where
  /-- The value. -/
  root : Node
  /-- Whether there is anything but blanks behind it. -/
  trailing : Bool

/-! ## Endings as problems -/

/-- What is wrong with the ending of a list. -/
def Ending.listProblem? : Ending → Option Problem
  | .closed => none
  | .cut => some (.cutShort .list)
  | .cutAfterComma => some (.cutShort .value)
  | .commaClosed => some (.malformed .trailingComma)
  | .noComma | .noKey _ => some (.malformed .noListComma)
  | .brokenKey reading _ => some reading

/-- What is wrong with the ending of an object. -/
def Ending.objectProblem? : Ending → Option Problem
  | .closed => none
  | .cut => some (.cutShort .object)
  | .cutAfterComma => some (.cutShort .value)
  | .commaClosed => some (.malformed .trailingComma)
  | .noComma => some (.malformed .noObjectComma)
  | .noKey _ => some (.malformed .keyNotString)
  | .brokenKey reading _ => some reading

/-- What is wrong with an object that has no member to name a variant. -/
def Ending.variantProblem : Ending → Problem
  | .noKey token => token.refuse "variant identifier"
  | .brokenKey reading _ => reading
  | .cut | .cutAfterComma => .cutShort .value
  | .closed | .commaClosed | .noComma => .malformed .noValue

/-- What is wrong with the ending of a list that is passed over. -/
def Ending.passedListProblem? : Ending → Option Problem
  | .commaClosed => some (.malformed .noValue)
  | .brokenKey _ passing => some passing
  | ending => ending.listProblem?

/-- What is wrong with the ending of an object that is passed over. -/
def Ending.passedObjectProblem? : Ending → Option Problem
  | .cutAfterComma => some (.cutShort .object)
  | .commaClosed => some (.malformed .keyNotString)
  | .brokenKey _ passing => some passing
  | ending => ending.objectProblem?

/-! ## The machine -/

/-- A container that is still open, around the value that is being read. The
    latest item or member comes first. -/
inductive Frame where
  /-- A list and its items so far. -/
  | list (items : List Node)
  /-- An object, its members so far, and the key whose value is being read. -/
  | object (members : List (Except Fault String × Node)) (key : Except Fault String)

/-- Closes the open containers around a place where the text breaks off. -/
def plug (node : Node) : List Frame → Node
  | [] => node
  | .list items :: frames => plug (.list (node :: items).reverse .cut) frames
  | .object members key :: frames =>
    plug (.object ((key, node) :: members).reverse .cut) frames

/-- What the machine waits for. The frames are the open containers, the
    innermost first. -/
inductive Builder where
  /-- A value. -/
  | value (frames : List Frame)
  /-- The first item of a list, or its end. -/
  | firstItem (frames : List Frame)
  /-- The next item of a list. -/
  | nextItem (items : List Node) (frames : List Frame)
  /-- A comma in a list, or its end. -/
  | afterItem (items : List Node) (frames : List Frame)
  /-- The first key of an object, or its end. -/
  | firstKey (frames : List Frame)
  /-- The next key of an object. -/
  | nextKey (members : List (Except Fault String × Node)) (frames : List Frame)
  /-- The colon behind a key. -/
  | colon (members : List (Except Fault String × Node)) (key : Except Fault String)
      (frames : List Frame)
  /-- A comma in an object, or its end. -/
  | afterMember (members : List (Except Fault String × Node)) (frames : List Frame)
  /-- The end of the text. -/
  | done (document : Document)
  /-- Nothing any more, since the text is broken. -/
  | stopped (root : Node)

namespace Builder

/-- A value is complete. -/
def deliver (node : Node) : List Frame → Builder
  | [] => .done ⟨node, false⟩
  | .list items :: frames => .afterItem (node :: items) frames
  | .object members key :: frames => .afterMember ((key, node) :: members) frames

/-- The text is broken at a node. -/
def stop (node : Node) (frames : List Frame) : Builder := .stopped (plug node frames)

/-- The text is broken in a way that reading and passing report alike. -/
def reject (fault : Fault) (frames : List Frame) : Builder :=
  stop (.broken .nothing (.malformed fault) (.malformed fault)) frames

/-- A token where a value is due. -/
def takeValue (frames : List Frame) : Token → Builder
  | .openList => .firstItem frames
  | .openObject => .firstKey frames
  | .null => deliver .null frames
  | .bool b => deliver (.bool b) frames
  | .number (.ok n) => deliver (.number n) frames
  | .string (.ok s) => deliver (.string s) frames
  | .number (.error fault) | .string (.error fault) => deliver (.unfit fault) frames
  | .broken begun reading passing => stop (.broken begun reading passing) frames
  | .closeList | .closeObject | .comma | .colon | .stray => reject .noValue frames

/-- A token where a key is due, or a closing brace. -/
def takeKey (members : List (Except Fault String × Node)) (frames : List Frame)
    (atBrace : Builder) : Token → Builder
  | .string key => .colon members key frames
  | .closeObject => atBrace
  | .broken .string reading passing =>
    stop (.object members.reverse (.brokenKey reading passing)) frames
  | token => stop (.object members.reverse (.noKey token)) frames

/-- Takes in one token. -/
def step (builder : Builder) (token : Token) : Builder :=
  match builder, token with
  | .value frames, token => takeValue frames token
  | .firstItem frames, .closeList => deliver (.list [] .closed) frames
  | .firstItem frames, token => takeValue (.list [] :: frames) token
  | .nextItem items frames, .closeList => stop (.list items.reverse .commaClosed) frames
  | .nextItem items frames, token => takeValue (.list items :: frames) token
  | .afterItem items frames, .comma => .nextItem items frames
  | .afterItem items frames, .closeList => deliver (.list items.reverse .closed) frames
  | .afterItem items frames, _ => stop (.list items.reverse .noComma) frames
  | .firstKey frames, token => takeKey [] frames (deliver (.object [] .closed) frames) token
  | .nextKey members frames, token =>
    takeKey members frames (stop (.object members.reverse .commaClosed) frames) token
  | .colon members key frames, .colon => .value (.object members key :: frames)
  | .colon members key frames, _ => reject .noColon (.object members key :: frames)
  | .afterMember members frames, .comma => .nextKey members frames
  | .afterMember members frames, .closeObject => deliver (.object members.reverse .closed) frames
  | .afterMember members frames, _ => stop (.object members.reverse .noComma) frames
  | .done document, _ => .done { document with trailing := true }
  | .stopped root, _ => .stopped root

/-- The end of the text: everything that is open breaks off. -/
def finish : Builder → Document
  | .value frames => ⟨plug (.broken .nothing (.cutShort .value) (.cutShort .value)) frames, false⟩
  | .firstItem frames => ⟨plug (.list [] .cut) frames, false⟩
  | .nextItem items frames => ⟨plug (.list items.reverse .cutAfterComma) frames, false⟩
  | .afterItem items frames => ⟨plug (.list items.reverse .cut) frames, false⟩
  | .firstKey frames => ⟨plug (.object [] .cut) frames, false⟩
  | .nextKey members frames => ⟨plug (.object members.reverse .cutAfterComma) frames, false⟩
  | .colon members key frames =>
    ⟨plug (.broken .nothing (.cutShort .object) (.cutShort .object))
      (.object members key :: frames), false⟩
  | .afterMember members frames => ⟨plug (.object members.reverse .cut) frames, false⟩
  | .done document => document
  | .stopped root => ⟨root, false⟩

end Builder

/-- The document that a row of tokens makes up. -/
def Document.ofTokens (tokens : List Token) : Document :=
  (tokens.foldl Builder.step (.value [])).finish

/-- The document that a text holds. -/
def Document.ofText (text : String) : Document := .ofTokens (tokens text.toList)

end BlockFlow.Json
