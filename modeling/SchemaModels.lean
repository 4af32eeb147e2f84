import SchemaModels.Document.Inline
import SchemaModels.Document.Printer
import SchemaModels.Main
import SchemaModels.Proofs.Graph.Additions
import SchemaModels.Proofs.Graph.Cycle
import SchemaModels.Proofs.Graph.Order
import SchemaModels.Proofs.TypeExpr
import SchemaModels.Proofs.Declaration
import SchemaModels.Proofs.Session
import SchemaModels.Proofs.Extensions
import SchemaModels.Proofs.Emission
import SchemaModels.Proofs.Outcome
import SchemaModels.Proofs.ScalarTable
import SchemaModels.Proofs.Header
import SchemaModels.Proofs.Graph.Renumbering
import SchemaModels.Proofs.Positions
import SchemaModels.Proofs.InPlace
import SchemaModels.Proofs.Arrangement
import SchemaModels.Proofs.Ignored
import SchemaModels.Proofs.Calls
import SchemaModels.Proofs.Context
import SchemaModels.Proofs.Graph.Stability
import SchemaModels.Proofs.Stability
import SchemaModels.Proofs.Document.Definitions
import SchemaModels.Proofs.SnakeCase
import SchemaModels.Proofs.Text.Lines
import SchemaModels.Proofs.ModuleText
import SchemaModels.Proofs.BoundNames
import SchemaModels.Proofs.Document.Lexing
import SchemaModels.Proofs.Document.RoundTrip
import SchemaModels.Proofs.Graph.LeastOrder
import SchemaModels.Proofs.Values
import SchemaModels.Proofs.Command
import SchemaModels.Proofs.Registration
import SchemaModels.Proofs.Features
import SchemaModels.Proofs.Layers
import SchemaModels.Proofs.Requiredness
import SchemaModels.Proofs.Text.FirstWord
import SchemaModels.Proofs.Text.WordBoundaries
import SchemaModels.Proofs.Text.CapitalisedWords
import SchemaModels.Proofs.Rendering
import SchemaModels.Proofs.Graph.Tables
import SchemaModels.Proofs.Returned
import SchemaModels.Proofs.Graph.Rank
import SchemaModels.Proofs.Graph.Sorter
