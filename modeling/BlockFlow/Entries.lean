/-! # Entries

  A dictionary as a list of named values in the order in which the names
  first came. Putting a value under a name that is already there keeps its
  place and takes the new value.
-/

namespace BlockFlow

/-- Named values in the order of their names' first appearance. -/
abbrev Entries (α : Type) := List (String × α)

namespace Entries

variable {α : Type}

/-- The value under a name. -/
def get? : Entries α → String → Option α
  | [], _ => none
  | (k, v) :: rest, key => if k = key then some v else get? rest key

/-- Puts a value under a name: in its place if the name is known, else at the
    end. -/
def put : Entries α → String → α → Entries α
  | [], key, value => [(key, value)]
  | (k, v) :: rest, key, value =>
    if k = key then (k, value) :: rest else (k, v) :: put rest key value

/-- Entries made from pairs in order, so that the last of repeated names
    wins. -/
def ofPairs (pairs : List (String × α)) : Entries α :=
  pairs.foldl (fun entries (key, value) => put entries key value) []

/-- The entries in the order of their names' code points. -/
def sorted (entries : Entries α) : Entries α :=
  entries.mergeSort fun a b => !decide (b.1 < a.1)

@[simp] theorem get?_nil (key : String) : get? ([] : Entries α) key = none := rfl

/-- What was put is what is found. -/
@[simp] theorem get?_put_self (entries : Entries α) (key : String) (value : α) :
    get? (put entries key value) key = some value := by
  induction entries with
  | nil => simp [put, get?]
  | cons entry rest ih =>
    obtain ⟨k, v⟩ := entry
    by_cases h : k = key <;> simp [put, get?, h, ih]

/-- Putting under one name leaves the others alone. -/
@[simp] theorem get?_put_ne (entries : Entries α) {key other : String} (value : α)
    (h : other ≠ key) : get? (put entries key value) other = get? entries other := by
  induction entries with
  | nil => simp [put, get?, Ne.symm h]
  | cons entry rest ih =>
    obtain ⟨k, v⟩ := entry
    by_cases hk : k = key
    · simp [put, get?, hk, Ne.symm h]
    · by_cases ho : k = other <;> simp [put, get?, hk, h, ho, ih]

end Entries

end BlockFlow
