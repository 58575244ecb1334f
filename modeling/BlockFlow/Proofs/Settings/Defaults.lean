import BlockFlow.Proofs.Json.Partial
import BlockFlow.Settings.Reader
import Mathlib.Data.List.Induction

/-! # Partial settings

    Settings may be written in part. What is left out is filled in by two
    different rules: names keep their defaults one by one, and tables are
    replaced as a whole.

    - `Settings.GivenBy` says this of settings: for each name, for the tables
      as a whole, and for each of the given tables.
    - A text that is accepted may be written differently: its members, those of
      its tables and those of its conventions may change places, and unknown
      fields may come in (`Settings.Rewritten`). The settings stay the same. -/

namespace BlockFlow

open Json (Form Literal Fields)

/-! ## Section 1: Dictionaries and sets -/

theorem Entries.get?_ofPairs {α : Type} (pairs : List (String × α)) (key : String) :
    Entries.get? (Entries.ofPairs pairs) key = Entries.get? pairs.reverse key := by
  induction pairs using List.reverseRecOn with
  | nil => rfl
  | append_singleton pairs pair ih =>
    rw [Entries.ofPairs, List.foldl_append, ← Entries.ofPairs, List.reverse_append]
    show Entries.get? (Entries.put (Entries.ofPairs pairs) pair.1 pair.2) key =
      if pair.1 = key then some pair.2 else Entries.get? pairs.reverse key
    by_cases hkey : pair.1 = key
    · rw [if_pos hkey, ← hkey, Entries.get?_put_self]
    · rw [if_neg hkey, Entries.get?_put_ne _ _ (Ne.symm hkey), ih]

theorem LookupTables.mem_insertName {names : List String} {name other : String} :
    other ∈ insertName names name ↔ other ∈ names ∨ other = name := by
  unfold insertName
  split_ifs with h
  · have hmem : name ∈ names := List.contains_iff_mem.mp h
    grind
  · grind

theorem LookupTables.mem_distinct {names : List String} {name : String} :
    name ∈ distinct names ↔ name ∈ names := by
  induction names using List.reverseRecOn with
  | nil => rfl
  | append_singleton names last ih =>
    rw [distinct, List.foldl_append, ← distinct, List.mem_append, List.mem_singleton, ← ih]
    exact mem_insertName

theorem LookupTables.get?_of_readNames {form : Form} {entries : Entries String}
    (h : readNames form.node = .ok entries) :
    ∃ pairs, form.SpellsPairs pairs ∧
      ∀ opcode, Entries.get? entries opcode = Entries.get? pairs.reverse opcode := by
  obtain ⟨pairs, hpairs, h⟩ := exists_of_bind_eq_ok h
  obtain rfl := Except.ok.inj h
  exact ⟨pairs, Form.spellsPairs_of_membersOf hpairs, Entries.get?_ofPairs pairs⟩

theorem LookupTables.mem_of_readSet {form : Form} {names : List String}
    (h : readSet form.node = .ok names) :
    ∃ texts, form.SpellsTexts texts ∧ ∀ name, name ∈ names ↔ name ∈ texts := by
  obtain ⟨texts, htexts, h⟩ := exists_of_bind_eq_ok h
  obtain rfl := Except.ok.inj h
  exact ⟨texts, Form.spellsTexts_of_listOf htexts, fun _ => mem_distinct⟩

/-! ## Section 2: What settings are given by -/

/-- The fields of settings. -/
def Settings.sections : List String := ["tables", "conventions"]

/-- The fields of tables. -/
def LookupTables.sections : List String := ["setters", "getters", "methods", "clamps"]

/-- The dictionaries of tables under the names by which they are written. -/
def LookupTables.dictionaries (tables : LookupTables) : List (String × Entries String) :=
  [("setters", tables.setters), ("getters", tables.getters), ("methods", tables.methods)]

/-- **Tables are exactly what is given**: in a dictionary the last of repeated
    opcodes wins, clamps are a set, and what is not given is empty. -/
structure LookupTables.GivenBy (given : String → Form → Prop) (tables : LookupTables) : Prop where
  /-- A dictionary that is given. -/
  dictionary : ∀ table ∈ tables.dictionaries, ∀ value, given table.1 value →
    ∃ pairs, value.SpellsPairs pairs ∧
      ∀ opcode, Entries.get? table.2 opcode = Entries.get? pairs.reverse opcode
  /-- A dictionary that is not given. -/
  dictionary_absent : ∀ table ∈ tables.dictionaries,
    (∀ value, ¬given table.1 value) → table.2 = []
  /-- Clamps that are given. -/
  clamps : ∀ value, given "clamps" value → ∃ opcodes, value.SpellsTexts opcodes ∧
    ∀ opcode, opcode ∈ tables.clamps ↔ opcode ∈ opcodes
  /-- Clamps that are not given. -/
  clamps_absent : (∀ value, ¬given "clamps" value) → tables.clamps = []

/-- The conventions with the names by which they are written. -/
def Conventions.named : List (String × (Conventions → String)) :=
  [("context", (·.context)), ("end_of_flow", (·.endOfFlow)), ("end_of_program", (·.endOfProgram)),
    ("entity", (·.entity)), ("runner", (·.runner)), ("log", (·.log)),
    ("iterator_prefix", (·.counterStem))]

/-- The fields of conventions. -/
def Conventions.sections : List String := Conventions.named.map Prod.fst

/-- **Each convention is the one that is given, or the default.** -/
structure Conventions.GivenBy (given : String → Form → Prop) (conventions : Conventions) :
    Prop where
  /-- A name that is given. -/
  name : ∀ field ∈ named, ∀ value, given field.1 value →
    value.node = .string (field.2 conventions)
  /-- A name that is not given. -/
  name_absent : ∀ field ∈ named, (∀ value, ¬given field.1 value) → field.2 conventions = field.2 {}

/-- **What the settings of a text are**: names are given one by one, tables as
    a whole. -/
structure Settings.GivenBy (form : Form) (settings : Settings) : Prop where
  /-- No tables are given. -/
  tables_absent : (∀ tables, ¬form.Gives sections "tables" tables) →
    settings.tables = .musicBlocks
  /-- Tables are given, and nothing else counts. -/
  tables : ∀ tables, form.Gives sections "tables" tables →
    settings.tables.GivenBy (tables.Gives LookupTables.sections)
  /-- The names, of which none is given if there are no conventions. -/
  conventions : settings.conventions.GivenBy fun name value =>
    ∃ conventions, form.Gives sections "conventions" conventions ∧
      conventions.Gives Conventions.sections name value

theorem LookupTables.allDefaulted_fields : LookupTables.fields.AllDefaulted :=
  .cons (by decide) (.cons (by decide) (.cons (by decide) (.cons (by decide) .nil)))

theorem LookupTables.givenBy_of_read {form : Form} {tables : LookupTables}
    (h : LookupTables.read form.node = .ok tables) : tables.GivenBy (form.Gives sections) := by
  obtain ⟨⟨setters, getters, methods, clamps, _⟩, hrecord, h⟩ := exists_of_bind_eq_ok h
  obtain rfl := Except.ok.inj h
  have hall := Json.resolved_of_record allDefaulted_fields hrecord
  obtain ⟨hsetters, hsetters', hall⟩ := hall.first_and_rest
  obtain ⟨hgetters, hgetters', hall⟩ := hall.first_and_rest
  obtain ⟨hmethods, hmethods', hall⟩ := hall.first_and_rest
  obtain ⟨hclamps, hclamps', -⟩ := hall.first_and_rest
  constructor
  case dictionary =>
    simp only [dictionaries, List.forall_mem_cons]
    exact ⟨fun value hvalue => get?_of_readNames (hsetters value hvalue),
      fun value hvalue => get?_of_readNames (hgetters value hvalue),
      fun value hvalue => get?_of_readNames (hmethods value hvalue), List.forall_mem_nil _⟩
  case dictionary_absent =>
    simp only [dictionaries, List.forall_mem_cons]
    exact ⟨hsetters', hgetters', hmethods', List.forall_mem_nil _⟩
  case clamps => exact fun value hvalue => mem_of_readSet (hclamps value hvalue)
  case clamps_absent => exact hclamps'

theorem Conventions.allDefaulted_fields : (Conventions.fields {}).AllDefaulted :=
  .cons (by decide) (.cons (by decide) (.cons (by decide) (.cons (by decide)
    (.cons (by decide) (.cons (by decide) (.cons (by decide) .nil))))))

theorem Conventions.givenBy_of_read {form : Form} {conventions : Conventions}
    (h : Conventions.read form.node = .ok conventions) :
    conventions.GivenBy (form.Gives sections) := by
  obtain ⟨⟨context, endOfFlow, endOfProgram, entity, runner, log, counterStem, _⟩, hrecord, h⟩ :=
    exists_of_bind_eq_ok h
  obtain rfl := Except.ok.inj h
  have hall := Json.resolved_of_record allDefaulted_fields hrecord
  obtain ⟨hcontext, hcontext', hall⟩ := hall.first_and_rest
  obtain ⟨hflow, hflow', hall⟩ := hall.first_and_rest
  obtain ⟨hprogram, hprogram', hall⟩ := hall.first_and_rest
  obtain ⟨hentity, hentity', hall⟩ := hall.first_and_rest
  obtain ⟨hrunner, hrunner', hall⟩ := hall.first_and_rest
  obtain ⟨hlog, hlog', hall⟩ := hall.first_and_rest
  obtain ⟨hstem, hstem', -⟩ := hall.first_and_rest
  simp only [Json.text_eq_ok_iff] at hcontext hflow hprogram hentity hrunner hlog hstem
  constructor
  case name =>
    simp only [named, List.forall_mem_cons]
    exact ⟨hcontext, hflow, hprogram, hentity, hrunner, hlog, hstem, List.forall_mem_nil _⟩
  case name_absent =>
    simp only [named, List.forall_mem_cons]
    exact ⟨hcontext', hflow', hprogram', hentity', hrunner', hlog', hstem', List.forall_mem_nil _⟩

theorem Settings.allDefaulted_fields : (Settings.fields {}).AllDefaulted :=
  .cons (by decide) (.cons (by decide) .nil)

theorem Settings.givenBy_of_read {form : Form} {settings : Settings}
    (h : Settings.read form.node = .ok settings) : settings.GivenBy form := by
  obtain ⟨⟨tables, conventions, _⟩, hrecord, h⟩ := exists_of_bind_eq_ok h
  obtain rfl := Except.ok.inj h
  have hall := Json.resolved_of_record allDefaulted_fields hrecord
  obtain ⟨htables, htables', hall⟩ := hall.first_and_rest
  obtain ⟨hconventions, hconventions', -⟩ := hall.first_and_rest
  constructor
  case tables_absent => exact htables'
  case tables => exact fun value hvalue => LookupTables.givenBy_of_read (htables value hvalue)
  case conventions =>
    have hgiven : ∀ value, form.Gives sections "conventions" value →
        conventions.GivenBy (value.Gives Conventions.sections) :=
      fun value hvalue => Conventions.givenBy_of_read (hconventions value hvalue)
    constructor
    case name =>
      rintro field hfield value ⟨object, hobject, hvalue⟩
      exact (hgiven object hobject).name field hfield value hvalue
    case name_absent =>
      intro field hfield hnone
      by_cases hobject : ∃ object, form.Gives sections "conventions" object
      · obtain ⟨object, hobject⟩ := hobject
        exact (hgiven object hobject).name_absent field hfield fun value hvalue =>
          hnone value ⟨object, hobject, hvalue⟩
      · have hdefault := hconventions' fun object h => hobject ⟨object, h⟩
        exact congrArg field.2 hdefault

/-! ## Section 3: Settings written differently -/

/-- A member of settings, of which the tables or the conventions may be
    rewritten. -/
inductive Settings.SameMember : Literal × Form → Literal × Form → Prop where
  /-- Any member as it is. -/
  | unchanged (member : Literal × Form) : SameMember member member
  /-- The tables. -/
  | tables {key : Literal} {value value' : Form} (hkey : key.reread = .ok "tables")
      (hvalue : value.Rewritten LookupTables.sections value') :
      SameMember (key, value) (key, value')
  /-- The conventions. -/
  | conventions {key : Literal} {value value' : Form} (hkey : key.reread = .ok "conventions")
      (hvalue : value.Rewritten Conventions.sections value') :
      SameMember (key, value) (key, value')

/-- **Settings written differently**: the members of the whole, of the tables
    and of the conventions in any order, and each with unknown fields. -/
def Settings.Rewritten (members members' : List (Literal × Form)) : Prop :=
  ∃ kept, List.Forall₂ SameMember members kept ∧
    (Form.object kept).Rewritten sections (.object members')

theorem LookupTables.read_of_rewritten {form form' : Form} {tables : LookupTables}
    (hform : form.Rewritten sections form') (h : LookupTables.read form.node = .ok tables) :
    LookupTables.read form'.node = .ok tables := by
  obtain ⟨values, hrecord, h⟩ := exists_of_bind_eq_ok h
  rw [LookupTables.read, Json.record_of_rewritten hrecord hform]
  exact h

theorem Conventions.read_of_rewritten {form form' : Form} {conventions : Conventions}
    (hform : form.Rewritten sections form') (h : Conventions.read form.node = .ok conventions) :
    Conventions.read form'.node = .ok conventions := by
  obtain ⟨values, hrecord, h⟩ := exists_of_bind_eq_ok h
  rw [Conventions.read, Json.record_of_rewritten hrecord hform]
  exact h

/-- A member that is rewritten is read alike. -/
theorem Settings.SameMember.alike {member member' : Literal × Form} (h : SameMember member member') :
    (Settings.fields {}).Alike (member.1.reread, member.2.node)
      (member'.1.reread, member'.2.node) := by
  cases h with
  | unchanged => exact .inl rfl
  | tables hkey hvalue =>
    refine .inr ⟨"tables", by decide, hkey, hkey, fun _ tables htables => ?_, fun heq => ?_, trivial⟩
    · exact LookupTables.read_of_rewritten hvalue htables
    · exact absurd heq (by decide)
  | conventions hkey hvalue =>
    refine .inr ⟨"conventions", by decide, hkey, hkey, fun heq => ?_, fun _ conventions h => ?_,
      trivial⟩
    · exact absurd heq (by decide)
    · exact Conventions.read_of_rewritten hvalue h

theorem Settings.read_of_rewritten {members members' : List (Literal × Form)}
    {settings : Settings} (hmembers : Rewritten members members')
    (h : Settings.read (Form.object members).node = .ok settings) :
    Settings.read (Form.object members').node = .ok settings := by
  obtain ⟨kept, hkept, hform⟩ := hmembers
  obtain ⟨values, hrecord, h⟩ := exists_of_bind_eq_ok h
  -- First the values of the members are rewritten, then the object itself.
  have hrecord' : Json.record "struct CompilerConfig" (some (Settings.fields {}))
      (Form.object kept).node = .ok values := by
    rw [Form.node, Json.record_object, Fields.readValues_eq_ok] at hrecord ⊢
    obtain ⟨filled, hfilled, hvalues⟩ := hrecord
    refine ⟨filled, Fields.readObject_of_alike ?_ hfilled, hvalues⟩
    rw [Form.memberNodes_eq_map, Form.memberNodes_eq_map, List.forall₂_map_left_iff,
      List.forall₂_map_right_iff]
    exact hkept.imp fun _ _ hmember => hmember.alike
  rw [Settings.read, Json.record_of_rewritten hrecord' hform]
  exact h

theorem Settings.ofText_eq_ok_iff {form : Form} {text : String} {settings : Settings}
    (htext : Json.Spaced form.lexemes text.toList) :
    Settings.ofText text = .ok settings ↔ Settings.read form.node = .ok settings := by
  rw [Settings.ofText, Json.readText, Json.ofText_of_spaced htext, Json.Document.read]
  cases Settings.read form.node with
  | error problem => simp [Except.mapError, bind, Except.bind]
  | ok settings' => simp [Except.mapError, bind, Except.bind, Json.check, pure, Except.pure]

/-- **Partial settings.** Let a text that is an object be accepted. Written
    differently, it holds the same settings: in every other order of its
    members, of those of its tables and of those of its conventions, and with
    unknown fields. Each convention is the one that is given, or the default.
    Without tables they are the built-in ones; with tables, each of them is
    exactly what is given, and empty if it is not. -/
theorem Settings.givenBy_of_ofText {members : List (Literal × Form)} {text : String}
    {settings : Settings} (htext : Json.Spaced (Form.object members).lexemes text.toList)
    (h : Settings.ofText text = .ok settings) :
    settings.GivenBy (.object members) ∧
      ∀ members' text', Settings.Rewritten members members' →
        Json.Spaced (Form.object members').lexemes text'.toList →
          Settings.ofText text' = .ok settings := by
  have hread := (Settings.ofText_eq_ok_iff htext).mp h
  refine ⟨Settings.givenBy_of_read hread, fun members' text' hmembers htext' => ?_⟩
  exact (Settings.ofText_eq_ok_iff htext').mpr (Settings.read_of_rewritten hmembers hread)

theorem Settings.givenBy_of_ofText_rewritten :
    let methods : Form := .object [(.of "beep", .ofJson (.string "a")),
      (.of "beep", .ofJson (.string "b"))]
    let context := (Literal.of "context", Form.ofJson (.string "turtle"))
    let note := (Literal.of "note", Form.ofJson (.bool true))
    let members := [(Literal.of "tables", Form.object [(.of "methods", methods)]),
      (.of "conventions", .object [context])]
    let members' := [(Literal.of "conventions", Form.object [note, context]), note,
      (.of "tables", .object [(.of "methods", methods)])]
    let text := " \x7b \"tables\" : \x7b \"methods\" : \x7b \"beep\" : \"a\" ," ++
      " \"beep\" : \"b\" \x7d \x7d , \"conventions\" : \x7b \"context\" : \"turtle\" \x7d \x7d"
    let text' := " \x7b \"conventions\" : \x7b \"note\" : true , \"context\" : \"turtle\" \x7d ," ++
      " \"note\" : true , \"tables\" : \x7b \"methods\" : \x7b \"beep\" : \"a\" ," ++
      " \"beep\" : \"b\" \x7d \x7d \x7d"
    let settings : Settings :=
      { tables := { methods := [("beep", "b")] }, conventions := { context := "turtle" } }
    Settings.ofText text = .ok settings ∧ settings.GivenBy (.object members) ∧
      Settings.Rewritten members members' ∧ Settings.ofText text' = .ok settings := by
  intro methods context note members members' text text' settings
  have hnote : ∀ {names : List String}, "note" ∉ names → ∀ member ∈ [note],
      ∃ key s, member.1.reread = .ok key ∧ key ∉ names ∧ member.2 = .scalar s := fun hname =>
    List.forall_mem_singleton.mpr ⟨"note", _, Literal.reread_of _, hname, rfl⟩
  have hmembers : Settings.Rewritten members members' := by
    refine ⟨[(.of "tables", .object [(.of "methods", methods)]),
      (.of "conventions", .object [note, context])], ?_, ?_⟩
    · exact .cons (.unchanged _) (.cons (.conventions (Literal.reread_of _)
        (.object (hnote (by decide)) (.swap _ _ _))) .nil)
    · refine .object (hnote (by decide)) ?_
      -- The note stands between the two, which have changed places.
      exact (List.Perm.cons _ (.swap _ _ _)).trans (.swap _ _ _)
  have hblank : ∀ c ∈ [' '], Json.IsBlank c := List.forall_mem_singleton.mpr (.inl rfl)
  have htext : Json.Spaced (Form.object members).lexemes text.toList := by
    refine Json.spaced_of_eq_flatMap hblank ?_
    simp only [text, String.toList_append]
    decide +kernel
  have htext' : Json.Spaced (Form.object members').lexemes text'.toList := by
    refine Json.spaced_of_eq_flatMap hblank ?_
    simp only [text', String.toList_append]
    decide +kernel
  have hread : Settings.ofText text = .ok settings := by
    simp only [text, settings]
    cbv
  have hall := Settings.givenBy_of_ofText htext hread
  exact ⟨hread, hall.1, hmembers, hall.2 members' text' hmembers htext'⟩

end BlockFlow
