import TypeAtlas.Command.Disk
import TypeAtlas.Command.Invocation
import TypeAtlas.Command.Run
import TypeAtlas.Command.Session
import TypeAtlas.Command.Vocabulary
import TypeAtlas.Command.Words
import TypeAtlas.Data
import TypeAtlas.Data.Decode
import TypeAtlas.Diagram.Colour
import TypeAtlas.Diagram.Document
import TypeAtlas.Diagram.Label
import TypeAtlas.Diagram.Markup
import TypeAtlas.Diagram.Style
import TypeAtlas.Graph.Basic
import TypeAtlas.Graph.Build
import TypeAtlas.Graph.Listing
import TypeAtlas.Graph.Population
import TypeAtlas.Graph.Walk
import TypeAtlas.Json.Number
import TypeAtlas.Json.Reader
import TypeAtlas.Json.Token
import TypeAtlas.Json.Writer
import TypeAtlas.Main
import TypeAtlas.Number.Binary
import TypeAtlas.Number.Reading
import TypeAtlas.Number.Shortest
import TypeAtlas.Proofs.Absent
import TypeAtlas.Proofs.Arrival
import TypeAtlas.Proofs.Atomicity
import TypeAtlas.Proofs.CharacterData
import TypeAtlas.Proofs.Closure
import TypeAtlas.Proofs.Codec
import TypeAtlas.Proofs.CommandLine
import TypeAtlas.Proofs.Converse
import TypeAtlas.Proofs.DataReading
import TypeAtlas.Proofs.Drawing
import TypeAtlas.Proofs.Exposure
import TypeAtlas.Proofs.Fault
import TypeAtlas.Proofs.Growth
import TypeAtlas.Proofs.JsonDocument
import TypeAtlas.Proofs.JsonText
import TypeAtlas.Proofs.JsonToken
import TypeAtlas.Proofs.JsonWriting
import TypeAtlas.Proofs.Label
import TypeAtlas.Proofs.LabelSheet
import TypeAtlas.Proofs.LabelTable
import TypeAtlas.Proofs.LabelTitle
import TypeAtlas.Proofs.Lexeme
import TypeAtlas.Proofs.Listing
import TypeAtlas.Proofs.MarkupReading
import TypeAtlas.Proofs.MemberTag
import TypeAtlas.Proofs.Occurrence
import TypeAtlas.Proofs.Outline
import TypeAtlas.Proofs.ParameterList
import TypeAtlas.Proofs.Path
import TypeAtlas.Proofs.Population
import TypeAtlas.Proofs.Printing
import TypeAtlas.Proofs.QuotedId
import TypeAtlas.Proofs.ReadBack
import TypeAtlas.Proofs.Redraw
import TypeAtlas.Proofs.Reference
import TypeAtlas.Proofs.Running
import TypeAtlas.Proofs.Sheet
import TypeAtlas.Proofs.Spelling
import TypeAtlas.Proofs.Storage
import TypeAtlas.Proofs.Tagging
import TypeAtlas.Proofs.Views
import TypeAtlas.Proofs.Visits
import TypeAtlas.Proofs.Walk
import TypeAtlas.Proofs.Wiring
import TypeAtlas.Record.Arrangement
import TypeAtlas.Record.Codec
import TypeAtlas.Record.Declaration
import TypeAtlas.Record.Relation
import TypeAtlas.Record.Signature
import TypeAtlas.Record.TypeRecord
import TypeAtlas.Record.Vocabulary
import TypeAtlas.Settings
import TypeAtlas.Text.Concealed
import TypeAtlas.Text.NameList
import TypeAtlas.Toml.Reader
import TypeAtlas.Toml.Scalar
import TypeAtlas.Toml.Scan
import TypeAtlas.Toml.Table
import TypeAtlas.Toml.Text
