import ReflectGen.Command
import ReflectGen.CommandLine.Effective
import ReflectGen.CommandLine.Flag
import ReflectGen.CommandLine.Invocation
import ReflectGen.CommandLine.Value
import ReflectGen.Config.Candidates
import ReflectGen.Config.Json
import ReflectGen.Config.Lookup
import ReflectGen.Config.Toml.Key
import ReflectGen.Config.Toml.Number
import ReflectGen.Config.Toml.StringText
import ReflectGen.Config.Toml.Table
import ReflectGen.Config.Toml.Token
import ReflectGen.Config.Value
import ReflectGen.Config.Variables
import ReflectGen.Config.Yaml.Characters
import ReflectGen.Config.Yaml.Cursor
import ReflectGen.Config.Yaml.Node
import ReflectGen.Config.Yaml.Property
import ReflectGen.Config.Yaml.ScalarText
import ReflectGen.Config.Yaml.Token
import ReflectGen.Config.Yaml.Value
import ReflectGen.Decimal.Shortest
import ReflectGen.Diagnostic
import ReflectGen.Digest
import ReflectGen.Discovery
import ReflectGen.Document.Basic
import ReflectGen.Document.Format
import ReflectGen.Document.Json
import ReflectGen.Document.Toml
import ReflectGen.Document.Yaml
import ReflectGen.Document.Yaml.Resolve
import ReflectGen.Document.Yaml.Scalar
import ReflectGen.Document.Yaml.Timestamp
import ReflectGen.Emission.Options
import ReflectGen.Emission.Render
import ReflectGen.FileTree.Basic
import ReflectGen.FileTree.Error
import ReflectGen.FileTree.Operations
import ReflectGen.Glob.Basic
import ReflectGen.Glob.Compile
import ReflectGen.Glob.Matcher
import ReflectGen.Glob.Parse
import ReflectGen.Glob.Selection
import ReflectGen.Log.Console
import ReflectGen.Log.Line
import ReflectGen.Main
import ReflectGen.Marker.Arguments
import ReflectGen.Marker.Classify
import ReflectGen.Marker.Word
import ReflectGen.Metadata
import ReflectGen.Moment
import ReflectGen.Naming
import ReflectGen.Number
import ReflectGen.Path
import ReflectGen.Program
import ReflectGen.RecordSet
import ReflectGen.Run.Clash
import ReflectGen.Run.Collect
import ReflectGen.Run.Emit
import ReflectGen.Run.Event
import ReflectGen.Run.Failure
import ReflectGen.Run.LogFile
import ReflectGen.Run.Setup
import ReflectGen.Scan
import ReflectGen.Settings.Basic
import ReflectGen.Settings.Declared
import ReflectGen.Settings.Key
import ReflectGen.Text.Base64
import ReflectGen.Text.Basic
import ReflectGen.Text.CharClass
import ReflectGen.Text.LetterCase
import ReflectGen.Text.Quoted
import ReflectGen.Text.Utf8
import ReflectGen.Proofs.Command.Agreement
import ReflectGen.Proofs.Config.Precedence
import ReflectGen.Proofs.Discovery
import ReflectGen.Proofs.Discovery.Exact
import ReflectGen.Proofs.Discovery.Pruning
import ReflectGen.Proofs.Discovery.Walk
import ReflectGen.Proofs.Document.Json
import ReflectGen.Proofs.FileTree.Basic
import ReflectGen.Proofs.FileTree.Directory
import ReflectGen.Proofs.FileTree.Resolve
import ReflectGen.Proofs.FileTree.Route
import ReflectGen.Proofs.FileTree.Store
import ReflectGen.Proofs.FileTree.WellFormed
import ReflectGen.Proofs.Glob.Assembled
import ReflectGen.Proofs.Glob.Compiled
import ReflectGen.Proofs.Glob.EveryDirectory
import ReflectGen.Proofs.Glob.Glued
import ReflectGen.Proofs.Glob.Joined
import ReflectGen.Proofs.Glob.Obeys
import ReflectGen.Proofs.Glob.Pieces
import ReflectGen.Proofs.Glob.Pivot
import ReflectGen.Proofs.Glob.Places
import ReflectGen.Proofs.Glob.Rules
import ReflectGen.Proofs.Glob.Standard
import ReflectGen.Proofs.Glob.Stars
import ReflectGen.Proofs.Glob.Tokens
import ReflectGen.Proofs.Keyed
import ReflectGen.Proofs.Keyed.Gathered
import ReflectGen.Proofs.Log.Handler
import ReflectGen.Proofs.Log.Line
import ReflectGen.Proofs.Marker.Balance
import ReflectGen.Proofs.Marker.Cut
import ReflectGen.Proofs.Marker.Group
import ReflectGen.Proofs.Marker.Invocation
import ReflectGen.Proofs.Marker.Leftmost
import ReflectGen.Proofs.Metadata
import ReflectGen.Proofs.Metadata.Account
import ReflectGen.Proofs.Naming
import ReflectGen.Proofs.Path
import ReflectGen.Proofs.RecordSet
import ReflectGen.Proofs.Render
import ReflectGen.Proofs.Run.Account
import ReflectGen.Proofs.Run.Clash
import ReflectGen.Proofs.Run.Collect
import ReflectGen.Proofs.Run.Emit
import ReflectGen.Proofs.Run.Extension
import ReflectGen.Proofs.Run.Frame
import ReflectGen.Proofs.Run.LeftOver
import ReflectGen.Proofs.Run.Modes
import ReflectGen.Proofs.Run.Order
import ReflectGen.Proofs.Run.Overwrite
import ReflectGen.Proofs.Run.Rejection
import ReflectGen.Proofs.Run.Rerun
import ReflectGen.Proofs.Run.Root
import ReflectGen.Proofs.Run.Verdict
import ReflectGen.Proofs.Run.Visit
import ReflectGen.Proofs.Scan.Accounting
import ReflectGen.Proofs.Scan.Basic
import ReflectGen.Proofs.Scan.Diagnostics
import ReflectGen.Proofs.Scan.Fields
import ReflectGen.Proofs.Scan.Generated
import ReflectGen.Proofs.Scan.Grammar
import ReflectGen.Proofs.Scan.LineEndings
import ReflectGen.Proofs.Scan.Printed
import ReflectGen.Proofs.Scan.Records
import ReflectGen.Proofs.Scan.Returned
import ReflectGen.Proofs.Text.Order
import ReflectGen.Proofs.Text.Utf8
