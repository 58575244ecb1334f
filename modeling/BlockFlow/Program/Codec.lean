import BlockFlow.Program.Wire

/-! # Programs as text and bytes

  The forms in which programs are stored and exchanged: compact JSON text,
  indented JSON text, and bytes.
-/

namespace BlockFlow

/-- Why there is no program in a text or in bytes. -/
inductive CodecError where
  /-- The text does not hold a program. -/
  | json (problem : Json.Problem)
  /-- The bytes do not hold a program. -/
  | wire (error : Wire.WireError)

/-- The wording of an error, without the place of a problem. -/
def CodecError.message : CodecError → String
  | .json problem => "codec error: json: " ++ problem.message
  | .wire error => "codec error: postcard: " ++ error.message

namespace Program

/-- A program as JSON text without blanks. -/
def toText (p : Program) : String := p.toJson.compact

/-- A program as JSON text with indentation. -/
def toIndentedText (p : Program) : String := p.toJson.indented

/-- The program that a JSON text holds. -/
def ofText (text : String) : Except CodecError Program :=
  (Json.readText (Program.read Json.maxDepth) text).mapError .json

/-- The program that bytes begin with. -/
def decode (bytes : Wire.Bytes) : Except CodecError Program :=
  (Program.ofBytes bytes).mapError .wire

end Program

end BlockFlow
