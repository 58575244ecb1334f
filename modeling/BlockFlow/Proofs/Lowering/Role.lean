import BlockFlow.Lowering.Opcode

/-! # Roles in terms of opcodes

    `Settings.role` looks an opcode up in four tables, one after the other.
    `HasRole` says for each role which opcodes have it:

    - a construct is one of the thirteen `controlOpcodes`, and no table can
      change that;
    - a setter, a method and `print` are what is left for their tables once
      the earlier ones have no entry;
    - every other opcode has no meaning.

    Proofs about lowering split on the role, and come back to opcodes by
    `role_hasRole`. -/

namespace BlockFlow

/-! ## Section 1: Entries -/

namespace Entries

variable {α : Type}

/-- What is found under a name is an entry of that name. -/
theorem mem_of_get?_eq_some {entries : Entries α} {key : String} {value : α}
    (h : get? entries key = some value) : (key, value) ∈ entries := by
  induction entries with
  | nil => simp at h
  | cons entry rest ih =>
    obtain ⟨k, v⟩ := entry
    unfold get? at h
    split at h
    · next hk =>
      rw [hk, Option.some.inj h]
      exact List.mem_cons_self
    · exact List.mem_cons_of_mem _ (ih h)

/-- Nothing is found exactly under the names that no entry has. -/
theorem get?_eq_none_iff {entries : Entries α} {key : String} :
    get? entries key = none ↔ key ∉ entries.map Prod.fst := by
  induction entries with
  | nil => simp
  | cons entry rest ih =>
    obtain ⟨k, v⟩ := entry
    by_cases hk : k = key
    · simp [get?, hk]
    · have hk' : key ≠ k := fun h => hk h.symm
      simp [get?, hk, hk', ih]

end Entries

/-! ## Section 2: Constructs -/

/-- The opcodes that are known by name, whatever the lookup tables say. -/
def controlOpcodes : List String :=
  ["if", "ifthenelse", "repeat", "while", "forever", "until", "break", "switch", "case",
   "defaultcase", "increment", "incrementOne", "decrementOne"]

namespace Construct

/-- The opcode of a construct. -/
def opcode : Construct → String
  | .ifThen => "if"
  | .ifThenElse => "ifthenelse"
  | .repeatTimes => "repeat"
  | .whileTest => "while"
  | .forever => "forever"
  | .untilTest => "until"
  | .leave => "break"
  | .switch => "switch"
  | .case => "case"
  | .defaultCase => "defaultcase"
  | .increment => "increment"
  | .incrementOne => "incrementOne"
  | .decrementOne => "decrementOne"

theorem opcode_mem_controlOpcodes (c : Construct) : c.opcode ∈ controlOpcodes := by
  cases c <;> decide

theorem opcode_of_ofOpcode? {opcode : String} {c : Construct} (h : ofOpcode? opcode = some c) :
    opcode = c.opcode := by
  have hmem : (opcode, c) ∈ table := Entries.mem_of_get?_eq_some h
  have hall : ∀ entry ∈ table, entry.1 = entry.2.opcode := by decide
  exact hall _ hmem

theorem ofOpcode?_eq_none_iff {opcode : String} :
    ofOpcode? opcode = none ↔ opcode ∉ controlOpcodes :=
  Entries.get?_eq_none_iff

end Construct

/-! ## Section 3: Roles -/

namespace Settings

/-- **Roles by opcode**: what it takes for an opcode to have a role. -/
inductive HasRole (settings : Settings) : String → Role → Prop where
  /-- A construct has its one opcode. -/
  | construct (c : Construct) : HasRole settings c.opcode (.construct c)
  /-- A setter is no construct, and stands in the table of setters. -/
  | setter {opcode property : String}
      (hcontrol : opcode ∉ controlOpcodes)
      (hsetter : settings.tables.setter? opcode = some property) :
      HasRole settings opcode (.setter property)
  /-- A method is neither a construct nor a setter, and stands in the table of
      methods. Only for methods does it matter whether they are clamps. -/
  | method {opcode name : String}
      (hcontrol : opcode ∉ controlOpcodes)
      (hsetter : settings.tables.setter? opcode = none)
      (hmethod : settings.tables.method? opcode = some name) :
      HasRole settings opcode (.method name (settings.tables.isClamp opcode))
  /-- Printing is what `print` means without an entry in a table. -/
  | print
      (hsetter : settings.tables.setter? "print" = none)
      (hmethod : settings.tables.method? "print" = none) :
      HasRole settings "print" .print
  /-- Every other opcode has no meaning. -/
  | unknown {opcode : String}
      (hcontrol : opcode ∉ controlOpcodes)
      (hsetter : settings.tables.setter? opcode = none)
      (hmethod : settings.tables.method? opcode = none)
      (hprint : opcode ≠ "print") :
      HasRole settings opcode .unknown

theorem role_hasRole (settings : Settings) (opcode : String) :
    settings.HasRole opcode (settings.role opcode) := by
  unfold role
  split
  · next c hc =>
    rw [Construct.opcode_of_ofOpcode? hc]
    exact .construct c
  · next hnone =>
    have hcontrol := Construct.ofOpcode?_eq_none_iff.mp hnone
    split
    · next hsetter => exact .setter hcontrol hsetter
    · next hsetter =>
      split
      · next hmethod => exact .method hcontrol hsetter hmethod
      · next hmethod =>
        split
        · next hprint =>
          subst hprint
          exact .print hsetter hmethod
        · next hprint => exact .unknown hcontrol hsetter hmethod hprint

end Settings

end BlockFlow
