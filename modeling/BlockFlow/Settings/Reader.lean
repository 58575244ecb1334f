import BlockFlow.Json.Reader
import BlockFlow.Settings.Basic

/-! # Settings from JSON

  Settings are written as a JSON object, of which every part may be left
  out. Names that are left out keep their defaults one by one. The tables are
  replaced as a whole: a table that is left out of given tables is empty.
-/

namespace BlockFlow

open Json (Reader Fields)

/-- Reads a dictionary of names. The last of repeated keys wins. -/
def LookupTables.readNames : Reader (Entries String) := fun node => do
  let pairs ← Json.membersOf (some Json.text) node
  return Entries.ofPairs pairs

/-- Reads a list of names as a set. -/
def LookupTables.readSet : Reader (List String) := fun node => do
  let names ← Json.listOf (some Json.text) node
  return distinct names

/-- The fields of the tables. -/
def LookupTables.fields :
    Fields (Entries String × Entries String × Entries String × List String × Unit) :=
  .defaulted "setters" readNames [] <|
  .defaulted "getters" readNames [] <|
  .defaulted "methods" readNames [] <|
  .defaulted "clamps" readSet [] .nil

/-- Reads lookup tables. -/
def LookupTables.read : Reader LookupTables := fun node => do
  let (setters, getters, methods, clamps, _) ←
    Json.record "struct LookupTables" (some fields) node
  return { setters, getters, methods, clamps }

/-- The fields of the conventions, with the defaults for those left out. -/
def Conventions.fields (defaults : Conventions) :
    Fields (String × String × String × String × String × String × String × Unit) :=
  .defaulted "context" Json.text defaults.context <|
  .defaulted "end_of_flow" Json.text defaults.endOfFlow <|
  .defaulted "end_of_program" Json.text defaults.endOfProgram <|
  .defaulted "entity" Json.text defaults.entity <|
  .defaulted "runner" Json.text defaults.runner <|
  .defaulted "log" Json.text defaults.log <|
  .defaulted "iterator_prefix" Json.text defaults.counterStem .nil

/-- Reads conventions. -/
def Conventions.read : Reader Conventions := fun node => do
  let (context, endOfFlow, endOfProgram, entity, runner, log, counterStem, _) ←
    Json.record "struct Conventions" (some (fields {})) node
  return { context, endOfFlow, endOfProgram, entity, runner, log, counterStem }

/-- The fields of settings. -/
def Settings.fields (defaults : Settings) : Fields (LookupTables × Conventions × Unit) :=
  .defaulted "tables" LookupTables.read defaults.tables <|
  .defaulted "conventions" Conventions.read defaults.conventions .nil

/-- Reads settings. -/
def Settings.read : Reader Settings := fun node => do
  let (tables, conventions, _) ← Json.record "struct CompilerConfig" (some (fields {})) node
  return { tables, conventions }

/-- Why there are no settings. -/
inductive SettingsError where
  /-- The file cannot be read. -/
  | unreadable (path reason : String)
  /-- The text does not hold settings. -/
  | invalid (problem : Json.Problem)

/-- The wording of an error, without the place of a problem. -/
def SettingsError.message : SettingsError → String
  | .unreadable path reason => "config error: cannot read '" ++ path ++ "': " ++ reason
  | .invalid problem => "config error: invalid config: " ++ problem.message

/-- The settings that a text holds. -/
def Settings.ofText (text : String) : Except SettingsError Settings :=
  (Json.readText Settings.read text).mapError .invalid

end BlockFlow
