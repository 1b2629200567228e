import ElmBindgen.Catalogue
import ElmBindgen.Draft.Definition
import ElmBindgen.EnumTable.Serializer
import ElmBindgen.Generate
import ElmBindgen.Json.Reader
import ElmBindgen.Json.Writer
import ElmBindgen.Resolver.Query
import ElmBindgen.Session
import ElmBindgen.Proofs.Resolution.Growth
import ElmBindgen.Proofs.Resolution.Reach
import ElmBindgen.Proofs.Resolution.Walk
import ElmBindgen.Proofs.Graph.DepthFirst
import ElmBindgen.Proofs.Graph.Reference
import ElmBindgen.Proofs.Graph.Literal
import ElmBindgen.Proofs.Graph.Shapes
import ElmBindgen.Proofs.Resolution.Content
import ElmBindgen.Proofs.Resolution.Order
import ElmBindgen.Proofs.Graph.Listing
import ElmBindgen.Proofs.Elm.Innermost
import ElmBindgen.Proofs.Elm.Source
import ElmBindgen.Proofs.Resolution.References
import ElmBindgen.Proofs.Resolution.Category
import ElmBindgen.Proofs.Resolution.Failure
import ElmBindgen.Proofs.Resolution.Change
import ElmBindgen.Proofs.Resolution.Stability
import ElmBindgen.Proofs.Elm.Nesting
import ElmBindgen.Proofs.Resolution.Fragments
import ElmBindgen.Proofs.Resolution.Collisions
import ElmBindgen.Proofs.Graph.Chains
import ElmBindgen.Proofs.Graph.Restriction
import ElmBindgen.Proofs.Resolution.Success
import ElmBindgen.Proofs.Resolution.Independence
import ElmBindgen.Proofs.Elm.Constructor
import ElmBindgen.Proofs.Resolution.Constructors
import ElmBindgen.Proofs.Resolution.Repetition
import ElmBindgen.Proofs.Resolution.Exposure
import ElmBindgen.Proofs.Graph.Cycles
import ElmBindgen.Proofs.Resolution.Starts
import ElmBindgen.Proofs.Graph.Involvement
import ElmBindgen.Proofs.Resolution.Locality
import ElmBindgen.Proofs.Resolution.Alignment
import ElmBindgen.Proofs.Resolution.FixedPoint
import ElmBindgen.Proofs.Service.LastWrite
import ElmBindgen.Proofs.EnumTable.TwoWay
import ElmBindgen.Proofs.Elm.Lines
import ElmBindgen.Proofs.Elm.Literal
import ElmBindgen.Proofs.Elm.UnionSource
import ElmBindgen.Proofs.Elm.RecordSource
import ElmBindgen.Proofs.Elm.Arguments
import ElmBindgen.Proofs.Graph.ChainBound
import ElmBindgen.Proofs.Graph.Relisting
import ElmBindgen.Proofs.Resolution.Required
import ElmBindgen.Proofs.EnumTable.FirstRepeat
import ElmBindgen.Proofs.Elm.LineCount
import ElmBindgen.Proofs.Elm.Spelling
import ElmBindgen.Proofs.Elm.Suffix
import ElmBindgen.Proofs.Resolution.Variants
import ElmBindgen.Proofs.Needs
import ElmBindgen.Proofs.Service.Metadata
import ElmBindgen.Proofs.Service.Hosts
import ElmBindgen.Proofs.Service.HostRules
import ElmBindgen.Proofs.Service.Providers
import ElmBindgen.Proofs.Elm.Comments
import ElmBindgen.Proofs.Resolution.Documentation
