import LiveExports.Cache.Basic
import LiveExports.Cache.Extraction
import LiveExports.Cache.Stamp
import LiveExports.Cache.Store
import LiveExports.CommandLine.Arguments
import LiveExports.CommandLine.OutputPath
import LiveExports.CommandLine.Run
import LiveExports.Decimal
import LiveExports.Declarations
import LiveExports.Declarations.Codec
import LiveExports.Diagnostic
import LiveExports.Digest
import LiveExports.Failure
import LiveExports.Fault
import LiveExports.Files.Change
import LiveExports.Files.FileSystem
import LiveExports.Files.Scan
import LiveExports.Files.Tree
import LiveExports.Graph.Basic
import LiveExports.Graph.Build
import LiveExports.Graph.Codec
import LiveExports.Graph.Search
import LiveExports.Graph.Validity
import LiveExports.Json.Decode
import LiveExports.Json.Reader
import LiveExports.Json.Value
import LiveExports.Json.Writer
import LiveExports.Liveness.Arena
import LiveExports.Liveness.Demand
import LiveExports.Liveness.Result
import LiveExports.Liveness.WorkList
import LiveExports.Log
import LiveExports.Main
import LiveExports.ModuleId
import LiveExports.Ordered.Basic
import LiveExports.Ordered.SortedSet
import LiveExports.Ordered.Table
import LiveExports.Path
import LiveExports.Project.Analysis
import LiveExports.Project.Config
import LiveExports.Project.Manifest
import LiveExports.Project.Settings
import LiveExports.Report.Document
import LiveExports.Report.Drawing
import LiveExports.Report.Percentage
import LiveExports.Report.Plain
import LiveExports.Resolution
import LiveExports.Source.Comments
import LiveExports.Source.Form
import LiveExports.Source.LineIndex
import LiveExports.Source.Occurrence
import LiveExports.Source.Reading
import LiveExports.Source.Specifiers
import LiveExports.Source.Statement
import LiveExports.Text.Lower
import LiveExports.Text.Pieces
import LiveExports.Text.Utf8
import LiveExports.Text.Word
import LiveExports.Toml.Assembly
import LiveExports.Toml.Reader
import LiveExports.Toml.Scalar
import LiveExports.Toml.Value
import LiveExports.Proofs.Graph.Reachability
import LiveExports.Proofs.Graph.Validity
import LiveExports.Proofs.Liveness.Rules
import LiveExports.Proofs.Ordered.Size
import LiveExports.Proofs.Liveness.Growth
import LiveExports.Proofs.Liveness.Soundness
import LiveExports.Proofs.Liveness.Saturation
import LiveExports.Proofs.Liveness.Termination
import LiveExports.Proofs.Liveness.FinalStage
import LiveExports.Proofs.Liveness.Provenance
import LiveExports.Proofs.Liveness.Comparison
import LiveExports.Proofs.Graph.Severed
import LiveExports.Proofs.Liveness.Provision
import LiveExports.Proofs.Liveness.MissingExports
import LiveExports.Proofs.Liveness.EntryExports
import LiveExports.Proofs.Liveness.ForwardTargets
import LiveExports.Proofs.Liveness.DeadReasons
import LiveExports.Proofs.Liveness.NamespaceForwards
import LiveExports.Proofs.Liveness.EntrySets
import LiveExports.Proofs.Liveness.IdleEdges
import LiveExports.Proofs.Liveness.PartOrder
import LiveExports.Proofs.Liveness.TurnCount
import LiveExports.Proofs.Graph.Building
import LiveExports.Proofs.Graph.FirstSubmissions
import LiveExports.Proofs.Graph.Translation
import LiveExports.Proofs.Cache.Codec
import LiveExports.Proofs.Cache.Faithful
import LiveExports.Proofs.Cache.Store
import LiveExports.Proofs.Project.Entries
import LiveExports.Proofs.Project.Transparency
import LiveExports.Proofs.Cache.Reloading
import LiveExports.Proofs.Path.Cleaning
import LiveExports.Proofs.Resolution.Closure
import LiveExports.Proofs.Project.KnownTargets
import LiveExports.Proofs.Source.Blanking
import LiveExports.Proofs.Source.Documents
import LiveExports.Proofs.Files.Contents
import LiveExports.Proofs.Project.Isolation
import LiveExports.Proofs.Project.Accounting
import LiveExports.Proofs.Source.Lines
import LiveExports.Proofs.Source.Programs
import LiveExports.Proofs.Source.Recognition
import LiveExports.Proofs.Source.Lists
import LiveExports.Proofs.Source.Code
import LiveExports.Proofs.Source.ReadBack
import LiveExports.Proofs.Source.Comments
import LiveExports.Proofs.Source.LineIndex
import LiveExports.Proofs.Source.LineNumbers
import LiveExports.Proofs.Resolution.Spelling
import LiveExports.Proofs.Resolution.LetterCase
import LiveExports.Proofs.Source.Layouts
import LiveExports.Proofs.Source.WrittenLists
import LiveExports.Proofs.Path.Relative
import LiveExports.Proofs.Report.Drawing
import LiveExports.Proofs.CommandLine.Confinement
import LiveExports.Proofs.Files.Scanning
import LiveExports.Proofs.Files.Keeping
import LiveExports.Proofs.Cache.Saving
import LiveExports.Proofs.Liveness.Arena
import LiveExports.Proofs.Liveness.Numbering
import LiveExports.Proofs.Graph.Searching
