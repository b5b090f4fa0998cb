import Predication.Main
import Predication.Builtin
import Predication.Entity.Registry
import Predication.Statement.Lowering
import Predication.Symbol
import Predication.Tag.Context
import Predication.Proofs.Registry.Coherence
import Predication.Proofs.Statement.Passes
import Predication.Proofs.Store.Table
import Predication.Proofs.Store.Call
import Predication.Proofs.Store.History
import Predication.Proofs.Store.Refinement
import Predication.Proofs.Json.Text
import Predication.Proofs.Json.Value
import Predication.Proofs.Statement.WireRoundTrip
import Predication.Proofs.Store.Seed
import Predication.Proofs.Store.SeedStates
import Predication.Proofs.Catalog.Growth
import Predication.Proofs.Catalog.Creation
import Predication.Proofs.Store.Preparation
import Predication.Proofs.Json.Grammar
import Predication.Proofs.Json.Quoted
import Predication.Proofs.Json.Number
import Predication.Proofs.Json.Document
import Predication.Proofs.Statement.WireFormat
import Predication.Proofs.Fact.History
import Predication.Proofs.Registry.Roll
import Predication.Proofs.Command.Expansion
import Predication.Proofs.Statement.Lowering
import Predication.Proofs.Statement.Branches
import Predication.Proofs.Registry.Representation
import Predication.Proofs.Command.Failure
import Predication.Proofs.Command.Embeddings
import Predication.Proofs.Embedding.Reading
import Predication.Proofs.Statement.Binding
import Predication.Proofs.Store.Reseeding
import Predication.Proofs.Embedding.RoundTrip
import Predication.Proofs.Object.Agreement
import Predication.Proofs.Symbol.Run
import Predication.Proofs.Statement.Key
import Predication.Proofs.Session.Durability
import Predication.Proofs.Fact.Specificity
import Predication.Proofs.Object.Rendering
import Predication.Proofs.Tag.Label
import Predication.Proofs.Definition.SeedFile
