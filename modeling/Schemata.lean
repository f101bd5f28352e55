import Schemata.Main
import Schemata.Schema.File
import Schemata.Proofs.Journal
import Schemata.Proofs.Schema.Operations
import Schemata.Proofs.Schema.Sessions
import Schemata.Proofs.Schema.Drafts
import Schemata.Proofs.Schema.Loading
import Schemata.Proofs.ClassModel.Extraction
import Schemata.Proofs.ClassModel.Narrowing
import Schemata.Proofs.ClassModel.Drawing
import Schemata.Proofs.Pipeline.Registry
import Schemata.Proofs.Pipeline.Operations
import Schemata.Proofs.Pipeline.Aliases
import Schemata.Proofs.Pipeline.Instances
import Schemata.Proofs.Pipeline.Engine
import Schemata.Proofs.Document.Spelling
import Schemata.Proofs.Schema.Document
import Schemata.Proofs.Document.Json.Literal
import Schemata.Proofs.Document.Json.Reading
import Schemata.Proofs.Plugins.Documents
import Schemata.Proofs.Document.Yaml.Cursor
import Schemata.Proofs.Document.Yaml.Plain
import Schemata.Proofs.Document.Yaml.Quoted
import Schemata.Proofs.Document.Yaml.BlockScalar
import Schemata.Proofs.Document.Yaml.Scanner
import Schemata.Proofs.Document.Yaml.Texts
import Schemata.Proofs.Document.Yaml.Values
import Schemata.Proofs.Document.Yaml.Characters
import Schemata.Proofs.Document.Yaml.Nodes
import Schemata.Proofs.Document.Yaml.Reading
import Schemata.Proofs.Pipeline.History
import Schemata.Proofs.Pipeline.Inputs
import Schemata.Proofs.Pipeline.LastError
import Schemata.Proofs.CommandLine.Settings
import Schemata.Proofs.CommandLine.Translation
import Schemata.Proofs.Document.Json.Numeral
import Schemata.Proofs.Document.Json.Agreement
import Schemata.Proofs.Document.Json.Rearrangement
import Schemata.Proofs.Document.Json.Presentation
import Schemata.Proofs.Pipeline.Redirection
import Schemata.Proofs.Pipeline.Identifiers
import Schemata.Proofs.Pipeline.Membership
import Schemata.Proofs.ClassModel.Batches
import Schemata.Proofs.ClassModel.Visibility
import Schemata.Proofs.Document.Parts
import Schemata.Proofs.ClassModel.Sketch
import Schemata.Proofs.Plugins.ClassModels
import Schemata.Proofs.Pipeline.Options
import Schemata.Proofs.Pipeline.Layers
import Schemata.Proofs.Pipeline.Overlays
import Schemata.Proofs.Document.Reloading
import Schemata.Proofs.Pipeline.Qualification
import Schemata.Proofs.Schema.Replay
import Schemata.Proofs.ClassModel.Replay
