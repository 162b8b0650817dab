import Infill.Main
import Infill.Store.Memory
import Infill.Proofs.Template.Filling
import Infill.Proofs.Template.Layers
import Infill.Proofs.Template.Settled
import Infill.Proofs.Text.Parts
import Infill.Proofs.CommandLine.Variables
import Infill.Proofs.CommandLine.Overrides
import Infill.Proofs.Path
import Infill.Proofs.Files.Walk
import Infill.Proofs.Files.Holding
import Infill.Proofs.Store.Alike
import Infill.Proofs.Files.Write
import Infill.Proofs.CommandLine.Runs
import Infill.Proofs.Data.Combined
import Infill.Proofs.Store.History
import Infill.Proofs.Text.Utf8
import Infill.Proofs.Json.Scalars
import Infill.Proofs.Json.RoundTrip
import Infill.Proofs.Json.Readable
import Infill.Proofs.Template.Obstacles
import Infill.Proofs.Files.Stored
import Infill.Proofs.Data.Address
import Infill.Proofs.Text.Pieces
import Infill.Proofs.Document.Fences
import Infill.Proofs.Document.Assembled
import Infill.Files.EmptyFolders
import Infill.Proofs.Files.Pruned
import Infill.Proofs.Files.EmptyFolders
import Infill.Proofs.Files.LastPart
import Infill.Proofs.Files.Change
import Infill.Proofs.Files.Folders
import Infill.Proofs.Files.Chain
import Infill.Proofs.Files.Moves
import Infill.Proofs.Glob.Reading
import Infill.Proofs.Glob.Search
import Infill.Proofs.Glob.InFolder
import Infill.Proofs.Glob.Spelling
import Infill.Proofs.Files.Listed
import Infill.Proofs.Data.Regrouping
import Infill.Proofs.CommandLine.Context
import Infill.Proofs.Data.Leaves
import Infill.Proofs.CommandLine.Expanded
import Infill.Proofs.Glob.Component
import Infill.Proofs.Files.InOrder
import Infill.Proofs.Data.Display
import Infill.Proofs.Template.Lines
import Infill.Proofs.Template.Unnamed
import Infill.Proofs.Number.Scaling
import Infill.Proofs.Number.Shortest
import Infill.Proofs.Number.Digits
import Infill.Proofs.Json.Doubles
import Infill.Proofs.Json.Ranged
import Infill.Proofs.Json.Reread
import Infill.Proofs.CommandLine.Split
import Infill.Proofs.Data.WholeNumbers
import Infill.Proofs.Template.Detected
import Infill.Proofs.Data.Composition
