import PackageOrder.CommandLine
import PackageOrder.Config.File
import PackageOrder.Config.Package
import PackageOrder.Decimal.Binary64
import PackageOrder.Decimal.Shortest
import PackageOrder.Dependency.Basic
import PackageOrder.Dependency.Order
import PackageOrder.Digest
import PackageOrder.Discovery.BasePaths
import PackageOrder.Discovery.Target
import PackageOrder.Discovery.Walk
import PackageOrder.EntryPoint.Basic
import PackageOrder.EntryPoint.Format
import PackageOrder.EntryPoint.Inspect
import PackageOrder.EntryPoint.Manifest
import PackageOrder.EntryPoint.Marker
import PackageOrder.EntryPoint.Sniff
import PackageOrder.Failure
import PackageOrder.FileTree.Basic
import PackageOrder.FileTree.Changes
import PackageOrder.FileTree.Error
import PackageOrder.FileTree.Lookup
import PackageOrder.FileTree.Snapshot
import PackageOrder.FileTree.Update
import PackageOrder.Graph
import PackageOrder.Json.Decode
import PackageOrder.Json.Form
import PackageOrder.Json.Reader
import PackageOrder.Json.Value
import PackageOrder.Json.Writer
import PackageOrder.Log
import PackageOrder.Main
import PackageOrder.Options
import PackageOrder.Path.Basic
import PackageOrder.Path.Host
import PackageOrder.Pattern.Basic
import PackageOrder.Pattern.Bracket
import PackageOrder.Pattern.Escape
import PackageOrder.Pattern.Outline
import PackageOrder.Pattern.Property
import PackageOrder.Pattern.Reader
import PackageOrder.Pattern.Size
import PackageOrder.Pattern.Spacing
import PackageOrder.Processing
import PackageOrder.Proofs.Config.Remembered
import PackageOrder.Proofs.Decimal.Nearest
import PackageOrder.Proofs.Decimal.Reading
import PackageOrder.Proofs.Decimal.Shortest
import PackageOrder.Proofs.Dependency.Closure
import PackageOrder.Proofs.Dependency.DeepImports
import PackageOrder.Proofs.Dependency.Edges
import PackageOrder.Proofs.Dependency.Formats
import PackageOrder.Proofs.Dependency.Invalid
import PackageOrder.Proofs.Dependency.Reported
import PackageOrder.Proofs.Dependency.Target
import PackageOrder.Proofs.Discovery.Links
import PackageOrder.Proofs.Discovery.Mapped
import PackageOrder.Proofs.Discovery.Outermost
import PackageOrder.Proofs.Discovery.PackagePath
import PackageOrder.Proofs.Discovery.Repeats
import PackageOrder.Proofs.Discovery.Search
import PackageOrder.Proofs.Discovery.Shortcut
import PackageOrder.Proofs.Discovery.Target
import PackageOrder.Proofs.Discovery.Walk
import PackageOrder.Proofs.EntryPoint.Description
import PackageOrder.Proofs.EntryPoint.Marked
import PackageOrder.Proofs.EntryPoint.Marker
import PackageOrder.Proofs.FileTree.Agree
import PackageOrder.Proofs.FileTree.Beside
import PackageOrder.Proofs.FileTree.Move
import PackageOrder.Proofs.FileTree.RealPath
import PackageOrder.Proofs.FileTree.Secluded
import PackageOrder.Proofs.FileTree.Shown
import PackageOrder.Proofs.FileTree.Tidy
import PackageOrder.Proofs.FileTree.Write
import PackageOrder.Proofs.Graph.Edges
import PackageOrder.Proofs.Graph.Local
import PackageOrder.Proofs.Graph.Mirror
import PackageOrder.Proofs.Graph.Order
import PackageOrder.Proofs.Graph.Walk
import PackageOrder.Proofs.Json.Indented
import PackageOrder.Proofs.Json.Nesting
import PackageOrder.Proofs.Json.Real
import PackageOrder.Proofs.Json.Reread
import PackageOrder.Proofs.Json.RoundTrip
import PackageOrder.Proofs.Json.Scalar
import PackageOrder.Proofs.Lookup
import PackageOrder.Proofs.Manifest.Again
import PackageOrder.Proofs.Manifest.Answer
import PackageOrder.Proofs.Manifest.Apart
import PackageOrder.Proofs.Manifest.BasePaths
import PackageOrder.Proofs.Manifest.Imports
import PackageOrder.Proofs.Manifest.Inspect
import PackageOrder.Proofs.Manifest.Intact
import PackageOrder.Proofs.Manifest.Listing
import PackageOrder.Proofs.Manifest.Places
import PackageOrder.Proofs.Manifest.Read
import PackageOrder.Proofs.Manifest.Walk
import PackageOrder.Proofs.Manifest.Write
import PackageOrder.Proofs.Path.Clean
import PackageOrder.Proofs.Path.Host
import PackageOrder.Proofs.Path.NormalForm
import PackageOrder.Proofs.Resolve.Comments
import PackageOrder.Proofs.Resolve.Installed
import PackageOrder.Proofs.Resolve.Mapped
import PackageOrder.Proofs.Resolve.Selection
import PackageOrder.Proofs.Run
import PackageOrder.Proofs.Script.Calls
import PackageOrder.Proofs.Script.Prescan
import PackageOrder.Proofs.Session
import PackageOrder.Proofs.Task.Agreement
import PackageOrder.Proofs.Task.Bundles
import PackageOrder.Proofs.Task.ClusterRun
import PackageOrder.Proofs.Task.Conservation
import PackageOrder.Proofs.Task.Coordination
import PackageOrder.Proofs.Task.Dispatch
import PackageOrder.Proofs.Task.Ending
import PackageOrder.Proofs.Task.Followed
import PackageOrder.Proofs.Task.History
import PackageOrder.Proofs.Task.Interleaving
import PackageOrder.Proofs.Task.Marking
import PackageOrder.Proofs.Task.Overtaking
import PackageOrder.Proofs.Task.Places
import PackageOrder.Proofs.Task.Plan
import PackageOrder.Proofs.Task.Queue
import PackageOrder.Proofs.Task.Reached
import PackageOrder.Proofs.Task.Resume
import PackageOrder.Proofs.Task.Service
import PackageOrder.Proofs.Task.Settled
import PackageOrder.Proofs.Task.TaskMessage
import PackageOrder.Proofs.Task.Waiting
import PackageOrder.Proofs.Text.Sorted
import PackageOrder.Proofs.Text.Split
import PackageOrder.Proofs.TwoRuns
import PackageOrder.Resolve.Builtin
import PackageOrder.Resolve.Mapping
import PackageOrder.Resolve.Module
import PackageOrder.Resolve.TsConfig
import PackageOrder.Script.Escape
import PackageOrder.Script.Imports
import PackageOrder.Script.Number
import PackageOrder.Script.Parse
import PackageOrder.Script.Parse.Binding
import PackageOrder.Script.Parse.Expression
import PackageOrder.Script.Parse.Function
import PackageOrder.Script.Parse.Markup
import PackageOrder.Script.Parse.Module
import PackageOrder.Script.Parse.Statement
import PackageOrder.Script.Parse.Types
import PackageOrder.Script.Program
import PackageOrder.Script.Target
import PackageOrder.Script.Token
import PackageOrder.Script.Tree
import PackageOrder.Session
import PackageOrder.Task.Basic
import PackageOrder.Task.Cluster
import PackageOrder.Task.Message
import PackageOrder.Task.Plan
import PackageOrder.Task.Progress
import PackageOrder.Task.Queue
import PackageOrder.Task.Single
import PackageOrder.Task.Worker
import PackageOrder.Text.Age
import PackageOrder.Text.Blank
import PackageOrder.Text.Break
import PackageOrder.Text.CaseFold
import PackageOrder.Text.Category
import PackageOrder.Text.CharSet
import PackageOrder.Text.Hexadecimal
import PackageOrder.Text.Interval
import PackageOrder.Text.Property
import PackageOrder.Text.Script
import PackageOrder.Text.Sorted
import PackageOrder.Text.Span
import PackageOrder.Text.Split
import PackageOrder.Text.Utf8
import PackageOrder.Text.Word
import PackageOrder.Version.Basic
import PackageOrder.Version.Range
