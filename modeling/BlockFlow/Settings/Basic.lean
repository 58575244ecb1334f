import BlockFlow.Settings.MusicBlocks

/-! # Settings

  What a compiler can be told: the lookup tables, and the names by which
  compiled programs refer to their surroundings.
-/

namespace BlockFlow

/-- The names that compiled programs use. -/
structure Conventions where
  /-- The variable for the context, the mouse that runs a flow. -/
  context : String := "mouse"
  /-- The attribute that a callback or an action returns. -/
  endOfFlow : String := "ENDFLOW"
  /-- The attribute that the program of a mouse returns. -/
  endOfProgram : String := "ENDMOUSE"
  /-- The class of mice. -/
  entity : String := "Mouse"
  /-- The function that starts all mice. -/
  runner : String := "MusicBlocks.run"
  /-- The function that prints. -/
  log : String := "console.log"
  /-- What the names of loop counters begin with. -/
  counterStem : String := "i"
deriving DecidableEq, Inhabited

/-- The number of the counted loops around a block. It has 64 bits, and behind
    the greatest depth comes zero. -/
abbrev Depth := UInt64

/-- A count of loops as a depth. -/
instance : Coe Nat Depth := ⟨UInt64.ofNat⟩

/-- The name of the counter of a loop at a depth. -/
def Conventions.counter (conventions : Conventions) (depth : Depth) : String :=
  conventions.counterStem ++ toString depth

/-- The settings of a compiler. -/
structure Settings where
  /-- What opcodes mean. -/
  tables : LookupTables := .musicBlocks
  /-- What things are called. -/
  conventions : Conventions := {}
deriving Inhabited

end BlockFlow
