import BlockFlow.Command.Folder
import BlockFlow.Main
import BlockFlow.Program.Agreement
import BlockFlow.Proofs.Lowering.Reached
import BlockFlow.Proofs.Lowering.Skeleton
import BlockFlow.Proofs.Wire.Parser
import BlockFlow.Proofs.Wire.RoundTrip
import BlockFlow.Proofs.Json.Lexing
import BlockFlow.Proofs.Json.Written
import BlockFlow.Proofs.Json.Reading
import BlockFlow.Proofs.Json.RoundTrip
import BlockFlow.Proofs.Lowering.Emitted
import BlockFlow.Proofs.Lowering.Assembled
import BlockFlow.Proofs.Lowering.Counters
import BlockFlow.Proofs.Lowering.Closures
import BlockFlow.Proofs.Flow.Canonical
import BlockFlow.Proofs.Wire.Persistence
import BlockFlow.Proofs.Lowering.Relevance
import BlockFlow.Proofs.Json.Nesting
import BlockFlow.Proofs.Json.Settled
import BlockFlow.Proofs.Json.Scalar
import BlockFlow.Proofs.Json.Form
import BlockFlow.Proofs.Json.Layout
import BlockFlow.Proofs.Json.Spelled
import BlockFlow.Proofs.Lowering.Calls
import BlockFlow.Proofs.Lowering.Parts
import BlockFlow.Proofs.Command.FileSystem
import BlockFlow.Proofs.Lowering.Renaming
import BlockFlow.Proofs.Wire.Length
import BlockFlow.Proofs.Command.AllOrNothing
import BlockFlow.Proofs.Flow.Grammar
import BlockFlow.Proofs.Flow.Projects
import BlockFlow.Proofs.Flow.Texts
import BlockFlow.Proofs.Lowering.Outlined
import BlockFlow.Proofs.Wire.Shortest
import BlockFlow.Proofs.Program.Unambiguous
import BlockFlow.Proofs.Settings.Defaults
import BlockFlow.Proofs.Json.Limit
import BlockFlow.Proofs.Json.NumberCut
import BlockFlow.Proofs.Json.Remnant
import BlockFlow.Proofs.Json.CutShort
import BlockFlow.Proofs.Lowering.Signs
import BlockFlow.Proofs.Program.DottedNames
