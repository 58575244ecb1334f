import BlockFlow.Entries

/-! # Lookup tables

  What the opcodes mean that the compiler has no rule for:

  - a *setter* assigns to an attribute of the context;
  - a *getter* reads one;
  - a *method* is called on the context;
  - a *clamp* is a method that takes the flow inside its block as a callback.
-/

namespace BlockFlow

/-- The lookup tables of a compiler. -/
structure LookupTables where
  /-- Attribute names by opcode, for assignments. -/
  setters : Entries String := []
  /-- Attribute names by opcode, for arguments. -/
  getters : Entries String := []
  /-- Method names by opcode; they may be dotted. -/
  methods : Entries String := []
  /-- The opcodes that wrap a flow, without repetitions. -/
  clamps : List String := []
deriving Inhabited

namespace LookupTables

/-- The attribute that an opcode assigns to. -/
def setter? (tables : LookupTables) (opcode : String) : Option String :=
  Entries.get? tables.setters opcode

/-- The attribute that an opcode reads. -/
def getter? (tables : LookupTables) (opcode : String) : Option String :=
  Entries.get? tables.getters opcode

/-- The method that an opcode calls. -/
def method? (tables : LookupTables) (opcode : String) : Option String :=
  Entries.get? tables.methods opcode

/-- Whether an opcode wraps a flow. -/
def isClamp (tables : LookupTables) (opcode : String) : Bool := tables.clamps.contains opcode

/-- Adds a setter. -/
def addSetter (tables : LookupTables) (opcode name : String) : LookupTables :=
  { tables with setters := Entries.put tables.setters opcode name }

/-- Adds a getter. -/
def addGetter (tables : LookupTables) (opcode name : String) : LookupTables :=
  { tables with getters := Entries.put tables.getters opcode name }

/-- Adds a method. -/
def addMethod (tables : LookupTables) (opcode name : String) : LookupTables :=
  { tables with methods := Entries.put tables.methods opcode name }

/-- Adds a name to a list unless it is there. -/
def insertName (names : List String) (name : String) : List String :=
  if names.contains name then names else names ++ [name]

/-- The names of a list, each once. -/
def distinct (names : List String) : List String := names.foldl insertName []

/-- Marks an opcode as a clamp. -/
def addClamp (tables : LookupTables) (opcode : String) : LookupTables :=
  { tables with clamps := insertName tables.clamps opcode }

end LookupTables

end BlockFlow
