/-! # Splitting text

  Two ways in which names are taken apart: a leading word is removed, or the
  name is cut wherever a certain character stands in it.
-/

namespace BlockFlow.Text

/-- What follows `lead` in `s`, if `s` begins with it. -/
def afterLead? (lead s : String) : Option String :=
  (lead.toList.isPrefixOf? s.toList).map String.ofList

/-- The pieces of a text between the places where `mark` stands: the first
    one, and those that follow a mark. Pieces may be empty. -/
def segments (mark : Char) : List Char → List Char × List (List Char)
  | [] => ([], [])
  | c :: rest =>
    let (piece, pieces) := segments mark rest
    if c = mark then ([], piece :: pieces) else (c :: piece, pieces)

@[simp] theorem segments_nil (mark : Char) : segments mark [] = ([], []) := rfl

/-- A mark starts a new piece. -/
@[simp] theorem segments_mark (mark : Char) (rest : List Char) :
    segments mark (mark :: rest) = ([], (segments mark rest).1 :: (segments mark rest).2) := by
  simp [segments]

/-- Any other character joins the piece it stands in. -/
theorem segments_cons {mark c : Char} (h : c ≠ mark) (rest : List Char) :
    segments mark (c :: rest) = (c :: (segments mark rest).1, (segments mark rest).2) := by
  simp [segments, h]

end BlockFlow.Text
