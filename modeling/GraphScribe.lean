import GraphScribe.Buffer
import GraphScribe.BufferPool
import GraphScribe.Bytes
import GraphScribe.Command
import GraphScribe.Command.Failure
import GraphScribe.Command.Invocation
import GraphScribe.Command.Reach
import GraphScribe.Command.Record
import GraphScribe.Conversion
import GraphScribe.Conversion.Error
import GraphScribe.Decode.Decoded
import GraphScribe.Decode.Decoder
import GraphScribe.Decode.ElementReader
import GraphScribe.Decode.Error
import GraphScribe.Decode.Fields
import GraphScribe.Decode.Kind
import GraphScribe.Decode.Streaming
import GraphScribe.Decode.Walker
import GraphScribe.Diagnostics
import GraphScribe.FileTree
import GraphScribe.Glob
import GraphScribe.Graph
import GraphScribe.Inputs
import GraphScribe.Lexicographic
import GraphScribe.Log
import GraphScribe.Log.Filter
import GraphScribe.Log.ValuePattern
import GraphScribe.Markup.Ascii
import GraphScribe.Markup.Attribute
import GraphScribe.Markup.Event
import GraphScribe.Markup.EventAttribute
import GraphScribe.Markup.Reference
import GraphScribe.Markup.SyntaxFault
import GraphScribe.Markup.Token
import GraphScribe.Number.Binary64
import GraphScribe.Number.Binary64.Reading
import GraphScribe.Number.Binary64.Shortest
import GraphScribe.Number.Integer
import GraphScribe.Path
import GraphScribe.Printer
import GraphScribe.Settings
import GraphScribe.Settings.Address
import GraphScribe.Settings.Discovery
import GraphScribe.Settings.File
import GraphScribe.Settings.Toml
import GraphScribe.Sink
import GraphScribe.Source
import GraphScribe.Statistics
import GraphScribe.SystemError
import GraphScribe.Template
import GraphScribe.Template.CostFunction
import GraphScribe.Template.Directive
import GraphScribe.Template.Error
import GraphScribe.Text.Alphabetic
import GraphScribe.Text.Blank
import GraphScribe.Text.Extender
import GraphScribe.Text.Numeric
import GraphScribe.Text.Quoted
import GraphScribe.Text.Unprintable
import GraphScribe.Text.Utf8
import GraphScribe.Main
import GraphScribe.Proofs.Decode.TreeMeaning
import GraphScribe.Proofs.Markup.Feed
import GraphScribe.Proofs.Decode.Collector
import GraphScribe.Proofs.Decode.StreamingTree
import GraphScribe.Proofs.Decode.WalkerTree
import GraphScribe.Proofs.Template.Grammar
import GraphScribe.Proofs.Markup.References
import GraphScribe.Proofs.Markup.AttributeLists
import GraphScribe.Proofs.Markup.Ends
import GraphScribe.Proofs.Decode.ErrorKind
import GraphScribe.Proofs.Decode.Tags
import GraphScribe.Proofs.Decode.Parting
import GraphScribe.Proofs.Decode.InStep
import GraphScribe.Proofs.Decode.Keys
import GraphScribe.Proofs.Decode.Lockstep
import GraphScribe.Proofs.Decode.Agreement
import GraphScribe.Proofs.Template.Output
import GraphScribe.Proofs.Template.Concatenation
import GraphScribe.Proofs.Printer.Staging
import GraphScribe.Proofs.Markup.Locality
import GraphScribe.Proofs.Markup.Layout
import GraphScribe.Proofs.Decode.Places
import GraphScribe.Proofs.Decode.Finality
import GraphScribe.Proofs.Decode.Truncation
import GraphScribe.Proofs.Decode.Likeness
import GraphScribe.Proofs.Markup.Nesting
import GraphScribe.Proofs.Decode.Insertion
import GraphScribe.Proofs.FileTree.Frame
import GraphScribe.Proofs.Conversion.Effect
import GraphScribe.Proofs.Conversion.Sequential
import GraphScribe.Proofs.Conversion.Workers
import GraphScribe.Proofs.Conversion.Schedules
import GraphScribe.Proofs.Conversion.Outputs
import GraphScribe.Proofs.Text.Boundaries
import GraphScribe.Proofs.Template.Faults
import GraphScribe.Proofs.Command.Rejection
import GraphScribe.Proofs.Path.Names
import GraphScribe.Proofs.FileTree.Below
import GraphScribe.Proofs.Glob.Reading
import GraphScribe.Proofs.Glob.Matching
import GraphScribe.Proofs.Inputs.Expansion
import GraphScribe.Proofs.Number.TextLength
import GraphScribe.Proofs.Pool.Settled
import GraphScribe.Proofs.Printer.Lending
import GraphScribe.Proofs.Decode.Lending
import GraphScribe.Proofs.Pool.Discipline
import GraphScribe.Proofs.Decode.Calls
import GraphScribe.Proofs.Decode.Selection
import GraphScribe.Proofs.Markup.Arrival
import GraphScribe.Proofs.Markup.StartTags
import GraphScribe.Proofs.Decode.ReadFailure
import GraphScribe.Proofs.Pool.Accounts
import GraphScribe.Proofs.Text.Separated
import GraphScribe.Proofs.Number.DecimalText
import GraphScribe.Proofs.Number.Rounding
import GraphScribe.Proofs.Template.CostFunction
import GraphScribe.Proofs.Template.Columns
import GraphScribe.Proofs.Template.AdjacencyMatrix
import GraphScribe.Proofs.Template.DefaultTemplate
import GraphScribe.Proofs.Settings.Layers
import GraphScribe.Proofs.Conversion.OutputPath
import GraphScribe.Proofs.Text.Quoted
import GraphScribe.Proofs.Template.Listing
import GraphScribe.Proofs.Markup.Automata
import GraphScribe.Proofs.Markup.Guarded
import GraphScribe.Proofs.Decode.Bounds
import GraphScribe.Proofs.Statistics.Interleaving
